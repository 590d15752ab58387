import Esp32Battery.Proofs.HistorySpans

/-!
# Entries as means

Compaction averages two entries as if they stood for equally many samples. The entry that set off
an earlier compaction stands for half as many as its neighbours, so the average of such a pair is
the mean of the samples behind it only where the two entries agree.
-/

namespace Esp32Battery

open Lib

namespace History

variable {h : History ℚ} {g : Spans (Sample ℚ)} {a b : Sample ℚ} {A B : List (Sample ℚ)}

def IsMean (row : Sample ℚ) (block : List (Sample ℚ)) : Prop :=
  ∀ c, row.channel c = (block.map fun s => s.channel c).sum / block.length

/-- Every entry is the mean of the samples it stands for, each weighted equally. -/
def TrueMeans (h : History ℚ) (g : Spans (Sample ℚ)) : Prop :=
  List.Forall₂ IsMean h.samples.items g.blocks

/-- Entries that a compaction would average stand for equally many samples, or agree. -/
def EvenPairs (h : History ℚ) (g : Spans (Sample ℚ)) : Prop :=
  Paired (fun p q => p.2.length = q.2.length ∨ ∀ c, p.1.channel c = q.1.channel c)
    (h.samples.items.zip g.blocks)

/-- On raw samples, each online or not, the mean is the fraction that was online. -/
theorem IsMean.powerOnline (ha : IsMean a A)
    (hraw : ∀ s ∈ A, s.powerOnline = 0 ∨ s.powerOnline = 1) :
    a.powerOnline = A.countP (fun s => s.powerOnline = 1) / A.length := by
  have hsum : (A.map fun s => s.powerOnline).sum = A.countP (fun s => s.powerOnline = 1) := by
    clear ha
    induction A with
    | nil => rfl
    | cons s A ih =>
      have ih := ih fun t ht => hraw t (by simp [ht])
      rcases hraw s (by simp) with hs | hs <;>
        simp [hs, ih, add_comm]
  exact (ha .powerOnline).trans (by rw [← hsum]; rfl)

theorem IsMean.fresh (row : List (Sample ℚ)) (raw : Sample ℚ) :
    IsMean ((SampleAccum.total (row ++ [raw])).mean (row.length + 1) raw.timeS)
      (row ++ [raw]) := by
  intro c
  simp

/-- The average of two means is the mean of both their blocks where they weigh the same, and
otherwise only by agreeing. -/
theorem IsMean.merge_iff (ha : IsMean a A) (hb : IsMean b B) (hA : A ≠ []) (hB : B ≠ []) :
    IsMean (a.merge b) (A ++ B) ↔
      A.length = B.length ∨ ∀ c, a.channel c = b.channel c := by
  have hm : (0 : ℚ) < A.length := by exact_mod_cast List.length_pos_iff.2 hA
  have hn : (0 : ℚ) < B.length := by exact_mod_cast List.length_pos_iff.2 hB
  have hc : ∀ c, (a.merge b).channel c
      = ((A ++ B).map fun s => s.channel c).sum / (A ++ B).length ↔
        A.length = B.length ∨ a.channel c = b.channel c := by
    intro c
    have hac := (eq_div_iff hm.ne').1 (ha c)
    have hbc := (eq_div_iff hn.ne').1 (hb c)
    have hfactor : (a.channel c + b.channel c) * (A.length + B.length)
        - (a.channel c * A.length + b.channel c * B.length) * 2
          = ((A.length : ℚ) - B.length) * (b.channel c - a.channel c) := by ring
    rw [Sample.merge_channel, List.map_append, List.sum_append, List.length_append, Nat.cast_add,
      ← hac, ← hbc, div_eq_div_iff two_ne_zero (add_pos hm hn).ne', ← sub_eq_zero, hfactor,
      mul_eq_zero, sub_eq_zero, sub_eq_zero, Nat.cast_inj, eq_comm (a := b.channel c)]
  unfold IsMean
  simp only [hc, forall_or_left]

/-- The first compaction of a history is even: every entry is a single sample. -/
theorem even_of_interval_one {raws : List (Sample ℚ)} (hs : h.Synced (spans raws))
    (hone : h.interval = 1) : h.EvenPairs (spans raws) := by
  have hsingle : ∀ block ∈ (spans raws).blocks, block.length = 1 := by
    intro block hb
    have hsized := (spans_sound raws).sized block hb
    have hwidth := hs.interval
    omega
  refine Paired.of_forall fun p hp q hq => .inl ?_
  rw [hsingle _ (List.of_mem_zip hp).2, hsingle _ (List.of_mem_zip hq).2]

/-- A commit keeps the entries true means unless it averages a pair that is not even. -/
theorem TrueMeans.commit_iff {raws : List (Sample ℚ)} (hs : h.Synced (spans raws))
    (hmeans : h.TrueMeans (spans raws)) (raw : Sample ℚ) :
    ∃ h', h.commit raw = .ok h' ∧ h'.Synced (spans (raws ++ [raw])) ∧
      (h'.TrueMeans (spans (raws ++ [raw])) ↔ (h.Coarsens → h.EvenPairs (spans raws))) := by
  obtain ⟨h', hcommit, hs', hiff⟩ := hs.commit hmeans IsMean.fresh raw
  rw [← spans_concat] at hs' hiff
  refine ⟨h', hcommit, hs', hiff.trans (imp_congr_right fun _ => Paired.congr ?_)⟩
  intro p hp q hq
  exact IsMean.merge_iff (List.forall₂_zip hmeans hp) (List.forall₂_zip hmeans hq)
    (ne_nil_of_mem_spans (List.of_mem_zip hp).2) (ne_nil_of_mem_spans (List.of_mem_zip hq).2)

/-- The entries are true means all along a run exactly where every compaction of it averages
even pairs only. -/
theorem true_means_iff (raws : List (Sample ℚ)) :
    (∀ before, before <+: raws →
      ∃ h, commitAll before = .ok h ∧ h.TrueMeans (spans before)) ↔
    ∀ before raw, before ++ [raw] <+: raws →
      ∃ h, commitAll before = .ok h ∧ (h.Coarsens → h.EvenPairs (spans before)) := by
  constructor
  · intro hall before raw hpre
    obtain ⟨h, hrun, hmeans⟩ := hall before ((List.prefix_append _ _).trans hpre)
    obtain ⟨h₁, hrun₁, hmeans₁⟩ := hall (before ++ [raw]) hpre
    obtain ⟨h₀, hrun₀, hs, -⟩ := commitAll_rows StandsFor.fresh StandsFor.merge before
    obtain rfl : h₀ = h := Except.ok.inj (hrun₀.symm.trans hrun)
    obtain ⟨h', hcommit, -, hiff⟩ := hmeans.commit_iff hs raw
    rw [commitAll_concat, hrun, ok_bind, hcommit, Except.ok.injEq] at hrun₁
    subst hrun₁
    exact ⟨h₀, hrun, hiff.1 hmeans₁⟩
  · intro heven before hpre
    have hsynced : ∃ h, commitAll before = .ok h ∧ h.Synced (spans before) ∧
        h.TrueMeans (spans before) := by
      induction before using List.reverseRecOn with
      | nil => exact ⟨.new, rfl, ⟨rfl, rfl, rfl⟩, .nil⟩
      | append_singleton before raw ih =>
        obtain ⟨h, hrun, hs, hmeans⟩ := ih ((List.prefix_append _ _).trans hpre)
        obtain ⟨h₀, hrun₀, hpair⟩ := heven before raw hpre
        obtain rfl : h₀ = h := Except.ok.inj (hrun₀.symm.trans hrun)
        obtain ⟨h', hcommit, hs', hiff⟩ := hmeans.commit_iff hs raw
        refine ⟨h', ?_, hs', hiff.2 hpair⟩
        rw [commitAll_concat, hrun, ok_bind, hcommit]
    obtain ⟨h, hrun, -, hmeans⟩ := hsynced
    exact ⟨h, hrun, hmeans⟩

/-- A supply that is online for one sample only, the one that sets off the first compaction. -/
def glint : List (Sample ℚ) :=
  (List.range 409).map fun t => ⟨t, 0, 0, 0, if t = 204 then 1 else 0⟩

/-- The second compaction reads that sample, one of three, as half of its entry. -/
theorem glint_entry :
    (commitAll glint).toOption.bind (fun h => h.samples.items[51]?.map Sample.powerOnline)
        = some (1 / 2) ∧
      (spans glint).blocks[51]?.map (fun b => (b.map Sample.powerOnline).sum / (b.length : ℚ))
        = some (1 / 3) := by
  decide +kernel

theorem true_means_fail :
    ¬ ∀ raws : List (Sample ℚ), ∃ h, commitAll raws = .ok h ∧ h.TrueMeans (spans raws) := by
  intro hall
  obtain ⟨h, hrun, hmeans⟩ := hall glint
  obtain ⟨hrow, hspan⟩ := glint_entry
  rw [hrun] at hrow
  simp only [Except.toOption, Option.bind_some, Option.map_eq_some_iff] at hrow hspan
  obtain ⟨row, hrow, hhalf⟩ := hrow
  obtain ⟨block, hblock, hthird⟩ := hspan
  have hmem : (row, block) ∈ h.samples.items.zip (spans glint).blocks := by
    refine List.mem_iff_getElem?.2 ⟨51, ?_⟩
    rw [List.getElem?_zip_eq_some]
    exact ⟨hrow, hblock⟩
  have hmean := List.forall₂_zip hmeans hmem .powerOnline
  have : (1 / 2 : ℚ) = 1 / 3 := hhalf.symm.trans (hmean.trans hthird)
  norm_num at this

end History

end Esp32Battery
