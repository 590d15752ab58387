import Esp32Battery.Data.History
import Esp32Battery.Lib.Spans

/-!
# What the history's entries stand for

Next to the history run the spans of the stream it is built from, joined and let go as its entries
are. The entries stay in step with the spans in any arithmetic; in exact arithmetic an entry also
lies between the readings of its span.
-/

namespace Esp32Battery

open Lib

variable {F : Type} [FloatLike F]

inductive Channel where
  | voltage | batteryCurrent | psCurrent | powerOnline
deriving DecidableEq

def Sample.channel (s : Sample F) : Channel → F
  | .voltage => s.voltage
  | .batteryCurrent => s.batteryCurrent
  | .psCurrent => s.psCurrent
  | .powerOnline => s.powerOnline

namespace SampleAccum

def channel (a : SampleAccum F) : Channel → F
  | .voltage => a.voltage
  | .batteryCurrent => a.batteryCurrent
  | .psCurrent => a.psCurrent
  | .powerOnline => a.powerOnline

def total (l : List (Sample F)) : SampleAccum F := l.foldl add zero

def mean (a : SampleAccum F) (n timeS : ℕ) : Sample F where
  timeS
  voltage := a.voltage / (n : F)
  batteryCurrent := a.batteryCurrent / (n : F)
  psCurrent := a.psCurrent / (n : F)
  powerOnline := a.powerOnline / (n : F)

theorem average_eq (a : SampleAccum F) {n : ℕ} (timeS : ℕ) (hn : 0 < n) :
    a.average n timeS = .ok (a.mean n timeS) := by
  simp only [average, hn, decide_true, require_true, ok_bind]
  rfl

end SampleAccum

/-- What compaction makes of two neighbours. -/
def Sample.merge (a b : Sample F) : Sample F := (SampleAccum.total [a, b]).mean 2 b.timeS

namespace History

theorem pairAverages_eq :
    ∀ l : List (Sample F), ∃ h, pairAverages l = .ok ⟨foldPairs Sample.merge l, h⟩
  | [] | [_] => ⟨by simp [foldPairs], rfl⟩
  | a :: b :: rest => by
    have hpair := SampleAccum.average_eq (SampleAccum.total [a, b]) b.timeS (n := 2) (by decide)
    obtain ⟨hlen, hrest⟩ := pairAverages_eq rest
    simp only [SampleAccum.total, List.foldl_cons, List.foldl_nil] at hpair
    refine ⟨by simp only [length_foldPairs]; omega, ?_⟩
    simp only [pairAverages, hpair, hrest, ok_bind]
    rfl

/-- The next sample completes an entry and finds the store full, below the interval's cap. -/
def Coarsens (h : History F) : Prop :=
  h.interval ≤ h.accCount + 1 ∧ h.samples.isFull = true ∧ h.interval < maxInterval

/-- The next sample completes an entry and finds the store full, at the interval's cap. -/
def Slides (h : History F) : Prop :=
  h.interval ≤ h.accCount + 1 ∧ h.samples.isFull = true ∧ h.interval = maxInterval

def commitAll (raws : List (Sample F)) : Except Panic (History F) := raws.foldlM commit .new

/-- The spans of `raws` that the entries of its history stand for. -/
def spans (raws : List (Sample F)) : Spans (Sample F) :=
  .ofStream historyCapacity maxInterval raws

structure Synced (h : History F) (g : Spans (Sample F)) : Prop where
  interval : h.interval = g.width
  count : h.accCount = g.pending.length
  acc : h.acc = .total g.pending

variable {h : History F} {g : Spans (Sample F)} {R : Sample F → List (Sample F) → Prop}

/-- Making room keeps the entries in step. Whatever ties an entry to its span is kept by a slide,
and by coarsening exactly where it is kept of each pair. -/
theorem makeRoom_rows (hint : h.interval = g.width)
    (hrows : List.Forall₂ R h.samples.items g.blocks) :
    ∃ h', h.makeRoom = .ok h' ∧ h'.samples.items.length < historyCapacity ∧
      h'.acc = h.acc ∧ h'.accCount = h.accCount ∧
      h'.interval = (g.makeRoom historyCapacity maxInterval).width ∧
      h'.samples.items.length = (g.makeRoom historyCapacity maxInterval).blocks.length ∧
      (List.Forall₂ R h'.samples.items (g.makeRoom historyCapacity maxInterval).blocks ↔
        (h.samples.isFull = true → h.interval < maxInterval →
          Paired (fun p q => R (p.1.merge q.1) (p.2 ++ q.2))
            (h.samples.items.zip g.blocks))) := by
  have hlen := h.samples.length_le
  have hentries := hrows.length_eq
  have hiff : h.samples.isFull = true ↔ g.blocks.length = historyCapacity := by
    rw [Deque.isFull, decide_eq_true_eq, hentries]
  unfold History.makeRoom Spans.makeRoom
  by_cases hfull : h.samples.isFull = true
  · rw [if_pos hfull, if_pos (hiff.1 hfull)]
    by_cases hbelow : h.interval < maxInterval
    · obtain ⟨hhalf, hpairs⟩ := pairAverages_eq h.samples.items
      rw [if_pos hbelow, if_pos (hint ▸ hbelow)]
      simp only [compact, hpairs, ok_bind]
      refine ⟨_, rfl, ?_, rfl, rfl, ?_, ?_, ?_⟩
      · simp only [length_foldPairs, historyCapacity] at hlen ⊢
        omega
      · simp only [hint]
      · simp only [length_foldPairs, hentries]
      · simp only [forall₂_foldPairs hrows, hfull, hbelow, true_implies]
    · rw [if_neg hbelow, if_neg (hint ▸ hbelow)]
      refine ⟨_, rfl, ?_, rfl, rfl, hint, ?_, ?_⟩
      · simp only [Deque.popFront, List.length_tail, historyCapacity] at hlen ⊢
        omega
      · simp only [Deque.popFront, List.length_tail, hentries]
      · refine iff_of_true ?_ fun _ hlt => absurd hlt hbelow
        simp only [Deque.popFront, ← List.drop_one]
        exact List.forall₂_drop 1 hrows
  · have hblocks := mt hiff.2 hfull
    rw [if_neg hfull, if_neg hblocks]
    refine ⟨h, rfl, ?_, rfl, rfl, hint, hentries, iff_of_true hrows fun hf => absurd hf hfull⟩
    exact lt_of_le_of_ne hlen (hentries ▸ hblocks)

/-- A commit keeps the history in step with its spans. -/
theorem Synced.commit (hs : h.Synced g) (hrows : List.Forall₂ R h.samples.items g.blocks)
    (hfresh : ∀ row raw, R ((SampleAccum.total (row ++ [raw])).mean (row.length + 1) raw.timeS)
      (row ++ [raw])) (raw : Sample F) :
    ∃ h', h.commit raw = .ok h' ∧ h'.Synced (g.push historyCapacity maxInterval raw) ∧
      (List.Forall₂ R h'.samples.items (g.push historyCapacity maxInterval raw).blocks ↔
        (h.Coarsens → Paired (fun p q => R (p.1.merge q.1) (p.2 ++ q.2))
          (h.samples.items.zip g.blocks))) := by
  have hacc : h.acc.add raw = .total (g.pending ++ [raw]) := by
    rw [hs.acc, SampleAccum.total, SampleAccum.total, List.foldl_concat]
  have hrow : (g.pending ++ [raw]).length = h.accCount + 1 := by
    rw [List.length_append, List.length_singleton, hs.count]
  unfold History.commit Spans.push
  simp only [hrow]
  by_cases hgather : h.accCount + 1 < h.interval
  · rw [if_pos hgather, if_pos (hs.interval ▸ hgather)]
    refine ⟨_, rfl, ⟨hs.interval, hrow.symm, hacc⟩, ?_⟩
    exact iff_of_true hrows fun hc => absurd hc.1 (by omega)
  · rw [if_neg hgather, if_neg (hs.interval ▸ hgather)]
    obtain ⟨h', hroom, hlt, hacc', hcount, hint, hentries, hiff⟩ := makeRoom_rows
      (h := { h with acc := .zero, accCount := 0 }) hs.interval hrows
    have haverage := SampleAccum.average_eq (.total (g.pending ++ [raw])) raw.timeS
      (Nat.succ_pos h.accCount)
    have hpush : h'.samples.pushBack
        ((SampleAccum.total (g.pending ++ [raw])).mean (h.accCount + 1) raw.timeS) = some _ :=
      dif_pos hlt
    simp only [hacc, haverage, hroom, hpush, ok_bind, expect_some]
    refine ⟨_, rfl, ⟨hint, hcount, hacc'⟩, ?_⟩
    have hnew := hfresh g.pending raw
    rw [← hs.count] at hnew
    rw [forall₂_concat, and_iff_left hnew, hiff, Coarsens, and_imp, and_imp]
    exact ⟨fun k _ => k, fun k => k (not_lt.1 hgather)⟩

theorem commitAll_concat (raws : List (Sample F)) (raw : Sample F) :
    commitAll (raws ++ [raw]) = (commitAll raws >>= fun h => h.commit raw) := by
  simp [commitAll]

omit [FloatLike F] in
theorem spans_concat (raws : List (Sample F)) (raw : Sample F) :
    spans (raws ++ [raw]) = (spans raws).push historyCapacity maxInterval raw :=
  Spans.ofStream_concat raws raw

omit [FloatLike F] in
theorem spans_sound (raws : List (Sample F)) :
    (spans raws).Sound historyCapacity maxInterval raws :=
  Spans.sound_ofStream (by decide) (by decide) ⟨6, rfl⟩ raws

omit [FloatLike F] in
theorem ne_nil_of_mem_spans {raws block : List (Sample F)} (hb : block ∈ (spans raws).blocks) :
    block ≠ [] := by
  rintro rfl
  have hsized := (spans_sound raws).sized [] hb
  have hgather := (spans_sound raws).gathering
  simp only [List.length_nil] at hsized
  omega

/-- A run of commits keeps whatever ties an entry to its span and is kept of each pair. -/
theorem commitAll_rows
    (hfresh : ∀ row raw, R ((SampleAccum.total (row ++ [raw])).mean (row.length + 1) raw.timeS)
      (row ++ [raw]))
    (hmerge : ∀ a A b B, R a A → R b B → R (a.merge b) (A ++ B)) (raws : List (Sample F)) :
    ∃ h, commitAll raws = .ok h ∧ h.Synced (spans raws) ∧
      List.Forall₂ R h.samples.items (spans raws).blocks := by
  induction raws using List.reverseRecOn with
  | nil => exact ⟨.new, rfl, ⟨rfl, rfl, rfl⟩, .nil⟩
  | append_singleton raws raw ih =>
    obtain ⟨h, hrun, hs, hrows⟩ := ih
    obtain ⟨h', hcommit, hs', hiff⟩ := hs.commit hrows hfresh raw
    rw [← spans_concat] at hs' hiff
    refine ⟨h', ?_, hs', hiff.2 fun _ => Paired.of_forall ?_⟩
    · rw [commitAll_concat, hrun, ok_bind, hcommit]
    · intro p hp q hq
      exact hmerge _ _ _ _ (List.forall₂_zip hrows hp) (List.forall₂_zip hrows hq)

end History

section exact

@[simp] theorem SampleAccum.total_channel (l : List (Sample ℚ)) (c : Channel) :
    (SampleAccum.total l).channel c = (l.map fun s => s.channel c).sum := by
  have hfrom : ∀ a : SampleAccum ℚ,
      (l.foldl .add a).channel c = a.channel c + (l.map fun s => s.channel c).sum := by
    induction l with
    | nil => simp
    | cons s l ih =>
      intro a
      have hadd : (a.add s).channel c = a.channel c + s.channel c := by cases c <;> rfl
      rw [List.foldl_cons, ih, hadd, List.map_cons, List.sum_cons, add_assoc]
  have hzero : (SampleAccum.zero : SampleAccum ℚ).channel c = 0 := by
    have h : (0.0 : ℚ) = 0 := by norm_num
    cases c <;> exact h
  rw [total, hfrom, hzero, zero_add]

@[simp] theorem SampleAccum.mean_channel (a : SampleAccum ℚ) (n timeS : ℕ) (c : Channel) :
    (a.mean n timeS).channel c = a.channel c / n := by
  cases c <;> rfl

@[simp] theorem Sample.merge_channel (a b : Sample ℚ) (c : Channel) :
    (a.merge b).channel c = (a.channel c + b.channel c) / 2 := by
  simp [merge]

theorem exists_le_mean {l : List (Sample ℚ)} (hl : l ≠ []) (f : Sample ℚ → ℚ) :
    ∃ s ∈ l, f s ≤ (l.map f).sum / l.length := by
  have hpos : (0 : ℚ) < l.length := by exact_mod_cast List.length_pos_iff.2 hl
  refine List.exists_le_of_sum_le hl f (fun _ => (l.map f).sum / l.length) (le_of_eq ?_)
  rw [List.map_const', List.sum_replicate, nsmul_eq_mul, mul_div_cancel₀ _ hpos.ne']

theorem exists_mean_le {l : List (Sample ℚ)} (hl : l ≠ []) (f : Sample ℚ → ℚ) :
    ∃ s ∈ l, (l.map f).sum / l.length ≤ f s := by
  have hpos : (0 : ℚ) < l.length := by exact_mod_cast List.length_pos_iff.2 hl
  refine List.exists_le_of_sum_le hl (fun _ => (l.map f).sum / l.length) f (le_of_eq ?_)
  rw [List.map_const', List.sum_replicate, nsmul_eq_mul, mul_div_cancel₀ _ hpos.ne']

namespace History

/-- `row` carries the stamp of the last reading of `block`, and each of its averages lies between
the least and the greatest reading of `block`. -/
structure StandsFor (row : Sample ℚ) (block : List (Sample ℚ)) : Prop where
  stamped : block.getLast?.map Sample.timeS = some row.timeS
  least : ∀ c, ∃ s ∈ block, s.channel c ≤ row.channel c
  greatest : ∀ c, ∃ s ∈ block, row.channel c ≤ s.channel c

theorem StandsFor.fresh (row : List (Sample ℚ)) (raw : Sample ℚ) :
    StandsFor ((SampleAccum.total (row ++ [raw])).mean (row.length + 1) raw.timeS)
      (row ++ [raw]) := by
  have hne : row ++ [raw] ≠ [] := by simp
  have hlen : (row ++ [raw]).length = row.length + 1 := by simp
  refine ⟨by simp [SampleAccum.mean], fun c => ?_, fun c => ?_⟩
  · rw [SampleAccum.mean_channel, SampleAccum.total_channel, ← hlen]
    exact exists_le_mean hne _
  · rw [SampleAccum.mean_channel, SampleAccum.total_channel, ← hlen]
    exact exists_mean_le hne _

theorem StandsFor.merge (a : Sample ℚ) (A : List (Sample ℚ)) (b : Sample ℚ) (B : List (Sample ℚ))
    (ha : StandsFor a A) (hb : StandsFor b B) : StandsFor (a.merge b) (A ++ B) := by
  refine ⟨?_, fun c => ?_, fun c => ?_⟩
  · have hstamp := hb.stamped
    rw [List.getLast?_append]
    rcases hlast : B.getLast? with _ | s
    · rw [hlast] at hstamp
      cases hstamp
    · rw [hlast] at hstamp
      exact hstamp
  · obtain ⟨s, hs, hsa⟩ := ha.least c
    obtain ⟨t, ht, htb⟩ := hb.least c
    rw [Sample.merge_channel]
    rcases le_total (s.channel c) (t.channel c) with hst | hst
    · exact ⟨s, by simp [hs], by linarith⟩
    · exact ⟨t, by simp [ht], by linarith⟩
  · obtain ⟨s, hs, hsa⟩ := ha.greatest c
    obtain ⟨t, ht, htb⟩ := hb.greatest c
    rw [Sample.merge_channel]
    rcases le_total (s.channel c) (t.channel c) with hst | hst
    · exact ⟨t, by simp [ht], by linarith⟩
    · exact ⟨s, by simp [hs], by linarith⟩

/-- Every one of `raws` is in the spans once and in order, and `h` is what the spans say. -/
structure Accounts (raws : List (Sample ℚ)) (h : History ℚ) (g : Spans (Sample ℚ)) : Prop where
  whole : g.lost ++ g.blocks.flatten ++ g.pending = raws
  rows : List.Forall₂ StandsFor h.samples.items g.blocks
  sized : ∀ block ∈ g.blocks, block.length ≤ h.interval ∧ h.interval ≤ 2 * block.length
  count : h.accCount = g.pending.length
  acc : ∀ c, h.acc.channel c = (g.pending.map fun s => s.channel c).sum
  gathering : h.accCount < h.interval
  interval_pow : ∃ k, h.interval = 2 ^ k
  interval_le : h.interval ≤ maxInterval
  entries_le : h.samples.items.length ≤ historyCapacity

/-- No commit fails, and what a history holds accounts for every sample committed: only a slide
ever lets any go. -/
theorem accounted (raws : List (Sample ℚ)) :
    ∃ h, commitAll raws = .ok h ∧ h.Accounts raws (spans raws) ∧
      ∀ raw, (spans (raws ++ [raw])).lost = (spans raws).lost ∨
        h.Slides ∧ (spans (raws ++ [raw])).lost
          = (spans raws).lost ++ (spans raws).blocks.head?.getD [] := by
  obtain ⟨h, hrun, hs, hrows⟩ := commitAll_rows StandsFor.fresh StandsFor.merge raws
  have hg := spans_sound raws
  have hinterval := hs.interval
  have hcount := hs.count
  refine ⟨h, hrun, ⟨hg.whole, hrows, ?_, hcount, ?_, ?_, ?_, ?_, h.samples.length_le⟩, ?_⟩
  · rw [hinterval]
    exact hg.sized
  · intro c
    rw [hs.acc, SampleAccum.total_channel]
  · rw [hinterval, hcount]
    exact hg.gathering
  · rw [hinterval]
    exact hg.width_pow
  · rw [hinterval]
    exact hg.width_le
  · intro raw
    rw [spans_concat]
    rcases Spans.push_lost (spans raws) raw with hlost | ⟨hdue, hfull, hlimit, hlost⟩
    · exact .inl hlost
    · refine .inr ⟨⟨?_, ?_, ?_⟩, hlost⟩
      · rw [hinterval, hcount]
        simpa using hdue
      · rw [Deque.isFull, decide_eq_true_eq, hrows.length_eq]
        exact hfull
      · rw [hinterval]
        exact le_antisymm hg.width_le hlimit

end History

end exact

end Esp32Battery
