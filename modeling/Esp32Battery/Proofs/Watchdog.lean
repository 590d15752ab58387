import Esp32Battery.Lib.Elapsed
import Esp32Battery.Proofs.Energising

/-!
# Feeding the watchdog

The thread subscribes to the watchdog before it boots the buck, and feeds it at the start of each
turn. What passes in between is what the calls to the buck take, at most ninety-one in a boot and
five in a turn, what the thread sleeps, and what everything else takes: the mutexes it waits for,
logging, and its own computing.
-/

namespace Esp32Battery

open Lib

variable {F : Type}

def wdtTimeout : Duration := .fromSecs 10

def XyOp.feeds : XyOp F → Bool
  | .wdtSubscribe | .wdtReset => true
  | _ => false

/-- The longest from an operation to the next one, where a call to the buck takes at most `T`, and
anything else at most `L` besides what it sleeps. -/
def XyOp.allowance (T L : ℕ) : XyOp F → ℕ
  | .sleep d => d.nanos + L
  | .wdtSubscribe | .wdtReset | .lap | .record _ | .updatePs _ | .batteryReading
  | .publishModel _ | .publish _ => L
  | _ => T

/-- A conversation in which each exchange stands with how long it is to the next. -/
abbrev TimedTalk (F : Type) := List (Answered (XyOp F) XyOp.Reply × ℕ)

/-- The time since the watchdog was last fed; none before the thread subscribes. -/
def unfed (c : TimedTalk F) : Option ℕ := elapsed (fun x => x.op.feeds) c

def slowest (T L : ℕ) (c : Talk F) : TimedTalk F := c.map fun x => (x, x.op.allowance T L)

def busy (T L : ℕ) (c : Talk F) : ℕ := total (slowest T L c)

section Busy

variable {T L : ℕ} {c c' : Talk F}

theorem busy_append : busy T L (c ++ c') = busy T L c + busy T L c' := by
  unfold busy slowest
  rw [List.map_append, total_append]

theorem busy_cons {x : Answered (XyOp F) XyOp.Reply} :
    busy T L (x :: c) = x.op.allowance T L + busy T L c := total_cons

/-- No feed among these, and no longer than `n`. -/
structure Unfed (T L n : ℕ) (c : Talk F) : Prop where
  busy_le : busy T L c ≤ n
  none : ∀ x ∈ c, x.op.feeds = false

theorem Unfed.append {n n' : ℕ} (h : Unfed T L n c) (h' : Unfed T L n' c') :
    Unfed T L (n + n') (c ++ c') where
  busy_le := by
    rw [busy_append]
    exact Nat.add_le_add h.busy_le h'.busy_le
  none x hx := (List.mem_append.1 hx).elim (h.none x) (h'.none x)

theorem Unfed.mono {n n' : ℕ} (h : Unfed T L n c) (hn : n ≤ n') : Unfed T L n' c :=
  ⟨h.busy_le.trans hn, h.none⟩

theorem busy_le_length (h : ∀ x ∈ c, x.op.allowance T L ≤ L) : busy T L c ≤ c.length * L := by
  induction c with
  | nil => exact Nat.zero_le _
  | cons x c ih =>
    obtain ⟨hx, hc⟩ := List.forall_mem_cons.1 h
    rw [busy_cons, List.length_cons, Nat.succ_mul, Nat.add_comm]
    exact Nat.add_le_add (ih hc) hx

/-- A feed and what follows up to the next. -/
theorem Unfed.block {n : ℕ} {x : Answered (XyOp F) XyOp.Reply} (h : Unfed T L n c)
    (hx : x.op.feeds = true) : Block (fun x => x.op.feeds) (L + n) (slowest T L (x :: c)) where
  begins := by
    refine ⟨_, slowest T L c, rfl, hx, fun y hy => ?_⟩
    obtain ⟨z, hz, rfl⟩ := List.mem_map.1 hy
    exact h.none z hz
  total_le := by
    have hL : x.op.allowance T L = L := by
      obtain ⟨op, r⟩ := x
      cases op <;> first | rfl | cases hx
    have hle := h.busy_le
    change busy T L (x :: c) ≤ _
    rw [busy_cons, hL]
    exact Nat.add_le_add_left hle L

end Busy

section Turn

variable {T L : ℕ} {c : Talk F} {s s' : ChargeSupervisor F} {log log' : ProtectionLog}

theorem Written.unfed {t : VoltageTicket F} {o : VoltageWriteOutcome} (h : Written t c o) :
    Unfed T L (4 * T + stepDownSettle.nanos + 3 * L) c := by
  cases h <;> exact ⟨by simp [busy, slowest, total, noted, XyOp.allowance]; omega,
    by simp [noted, XyOp.feeds]⟩

theorem drained_unfed (s : ChargeSupervisor F) : Unfed T L (transitionBuffer * L) s.drained where
  busy_le := by
    have hL := drained_forall_op (P := fun op => op.allowance T L ≤ L) (fun _ => le_rfl) s
    refine (busy_le_length hL).trans (Nat.mul_le_mul_right L ?_)
    rw [ChargeSupervisor.drained, List.length_map]
    exact s.transitions.length_le
  none := drained_forall_op (P := fun op => op.feeds = false) (fun _ => rfl) s

theorem PolledAs.unfed {p : PollResult F} (h : PolledAs log c p log') :
    Unfed T L (T + 3 * L) c := by
  cases h with
  | unread e bat =>
    exact ⟨by simp [busy, slowest, total, noted, XyOp.allowance]; omega,
      by simp [noted, XyOp.feeds]⟩
  | read st bat =>
    have hnotes : Unfed T L L (log.notes st) := by
      unfold ProtectionLog.notes ProtectionLog.causes
      split_ifs
      · exact ⟨Nat.zero_le _, by simp⟩
      · rcases XyError.fromProtection st.protection with _ | k
        · exact ⟨Nat.zero_le _, by simp⟩
        · exact ⟨by simp [busy, slowest, total, noted, XyOp.allowance], by simp [noted, XyOp.feeds]⟩
    have hreads : Unfed T L (2 * L) ([⟨.updatePs (psReading st), ()⟩,
        ⟨.batteryReading, bat⟩] : Talk F) :=
      ⟨by simp [busy, slowest, total, XyOp.allowance]; omega, by simp [XyOp.feeds]⟩
    have hrest := hnotes.append hreads
    refine ⟨?_, List.forall_mem_cons.2 ⟨rfl, hrest.none⟩⟩
    have hle := hrest.busy_le
    rw [List.cons_append, busy_cons]
    change T + busy T L (log.notes st ++ _) ≤ _
    omega

theorem Applied.unfed {a : Action F} {x : Except Panic (ChargeSupervisor F)}
    (h : Applied s a c x) : Unfed T L (4 * T + stepDownSettle.nanos + 3 * L) c := by
  cases h with
  | none => exact ⟨Nat.zero_le _, by simp⟩
  | retargeted hw => exact hw.unfed
  | unretargeted hw => exact hw.unfed
  | _ => exact ⟨by simp [busy, slowest, total, noted, XyOp.allowance]; omega,
      by simp [noted, XyOp.feeds]⟩

variable [FloatLike F]

/-- The longest from the feed of a turn to the next. -/
def turnNanos (T L : ℕ) : ℕ :=
  5 * T + stepDownSettle.nanos + pollInterval.nanos + (10 + transitionBuffer) * L

theorem Turned.unfed {x : Except Panic (ChargeSupervisor F × ProtectionLog)}
    (h : Turned s log c x) : Unfed T L
      (5 * T + stepDownSettle.nanos + pollInterval.nanos + (9 + transitionBuffer) * L) c := by
  have hlap : ∀ e : Duration, Unfed T L L ([⟨.lap, e⟩] : Talk F) := fun e =>
    ⟨by simp [busy, slowest, total, XyOp.allowance], by simp [XyOp.feeds]⟩
  have hend : ∀ st, Unfed T L (pollInterval.nanos + 2 * L)
      ([⟨.publish st, ()⟩, ⟨.sleep pollInterval, ()⟩] : Talk F) := fun st =>
    ⟨by simp [busy, slowest, total, XyOp.allowance]; omega, by simp [XyOp.feeds]⟩
  rw [Nat.add_mul]
  cases h with
  | unjudged hp _ => exact (hp.unfed.append (hlap _)).mono (by omega)
  | unapplied hp _ ha => exact (hp.unfed.append ((hlap _).append ha.unfed)).mono (by omega)
  | unpublished hp _ ha _ =>
    exact (hp.unfed.append ((hlap _).append (ha.unfed.append (drained_unfed _)))).mono (by omega)
  | turn hp _ ha _ =>
    exact (hp.unfed.append ((hlap _).append (ha.unfed.append
      ((drained_unfed _).append (hend _))))).mono (by omega)

theorem LoopTurns.feeds {n : ℕ} {cs : List (Talk F)} {x : Except Panic (ChargeSupervisor F)}
    (h : LoopTurns n s log cs x) : ∀ c ∈ cs, ∃ c', c = fed :: c' := by
  induction h with
  | done => simp
  | panic _ => simp
  | turn _ _ ih => exact List.forall_mem_cons.2 ⟨⟨_, rfl⟩, ih⟩

theorem LoopTurns.blocks {n : ℕ} {cs : List (Talk F)} {x : Except Panic (ChargeSupervisor F)}
    (h : LoopTurns n s log cs x) :
    ∀ c ∈ cs, Block (fun x => x.op.feeds) (turnNanos T L) (slowest T L c) := by
  have hturn : ∀ {s : ChargeSupervisor F} {log : ProtectionLog} {c : Talk F} {x},
      Turned s log c x →
        Block (fun x => x.op.feeds) (turnNanos T L) (slowest T L (fed :: c)) := fun h => by
    have hblock := h.unfed.block (T := T) (L := L) (x := fed) rfl
    refine ⟨hblock.begins, hblock.total_le.trans ?_⟩
    rw [turnNanos, Nat.add_mul, Nat.add_mul]
    omega
  induction h with
  | done => simp
  | panic h => exact List.forall_mem_singleton.2 (hturn h)
  | turn h _ ih => exact List.forall_mem_cons.2 ⟨hturn h, ih⟩

end Turn

section Boot

variable {T L : ℕ} {profile : Profile F} {buck : BuckSetup F} {c : Talk F} {bs : List (Talk F)}

/-- The longest from the subscription to the first feed, or to the reset of a boot that gives up. -/
def bootNanos (T L : ℕ) : ℕ := 91 * T + 9 * bootRetryDelay.nanos + 12 * L

theorem Attempted.busy_le (h : Attempted profile buck c) : busy T L c ≤ 9 * T := by
  have hops : busy T L c = ((c.map Answered.op).map (XyOp.allowance T L)).sum := by
    rw [busy, slowest, total, List.map_map, List.map_map]
    rfl
  obtain ⟨rest, hrest⟩ := h
  have hall : ((bootOps profile buck).map (XyOp.allowance T L)).sum = 9 * T := by
    simp [bootOps, XyOp.allowance]
    omega
  rw [← hrest, List.map_append, List.sum_append] at hall
  omega

theorem paused_busy_le (h : ∀ b ∈ bs, Attempted profile buck b) :
    busy T L (paused bs) ≤ bs.length * (9 * T + bootRetryDelay.nanos + L) := by
  induction bs with
  | nil => exact Nat.zero_le _
  | cons b bs ih =>
    have hb := (h b List.mem_cons_self).busy_le (T := T) (L := L)
    have hrest := ih fun b' hb' => h b' (List.mem_cons_of_mem b hb')
    have hsplit : paused (b :: bs) = ⟨.sleep bootRetryDelay, ()⟩ :: (b ++ paused bs) := rfl
    rw [hsplit, busy_cons, busy_append, List.length_cons, Nat.succ_mul]
    change bootRetryDelay.nanos + L + _ ≤ _
    omega

theorem retried_busy_le (h : ∀ b ∈ bs, Attempted profile buck b) (hlen : bs.length ≤ 10) :
    busy T L (retried bs) ≤ 90 * T + 9 * bootRetryDelay.nanos + 9 * L := by
  rcases bs with _ | ⟨b, bs⟩
  · exact Nat.zero_le _
  · have hb := (h b List.mem_cons_self).busy_le (T := T) (L := L)
    have hrest := paused_busy_le (T := T) (L := L) fun b' hb' => h b' (List.mem_cons_of_mem b hb')
    have hnine := Nat.mul_le_mul_right (9 * T + bootRetryDelay.nanos + L)
      (Nat.le_of_succ_le_succ hlen : bs.length ≤ 9)
    rw [retried, busy_append]
    omega

variable [FloatLike F]

/-- A session's boot and its turns. -/
theorem session_blocks {packTemp : PackTemp} {n : ℕ}
    {x : Option (Except Panic (ChargeSupervisor F))}
    (h : (session profile buck packTemp n).Says c x) : ∃ (boot : Talk F) (turns : List (Talk F)),
      c = boot ++ turns.flatten ∧ (∀ y ∈ boot, y.op.loopOnly = false) ∧
      (∀ c ∈ turns, ∃ c', c = fed :: c') ∧
      (∀ T L, Block (fun x => x.op.feeds) (bootNanos T L) (slowest T L boot)) ∧
      ∀ T L, ∀ c ∈ turns, Block (fun x => x.op.feeds) (turnNanos T L) (slowest T L c) := by
  have hunfed : ∀ {bs : List (Talk F)}, (∀ b ∈ bs, Attempted profile buck b) →
      ∀ y ∈ retried bs, y.op.feeds = false :=
    retried_forall (by simp [bootOps, XyOp.feeds]) rfl
  rcases says_session h with ⟨bs, hlen, hbs, -, r, gaveUp, rfl, hgave⟩ |
    ⟨bs, check, st, limits, rest, hlen, hbs, hv, rfl, hrest⟩
  · refine ⟨_, [], (List.append_nil _).symm, gaveUp_not_loopOnly hbs hgave, by simp,
      fun T L => ?_, by simp⟩
    have hend : Unfed T L (T + 2 * L)
        (noted (.xy .bootSequence) :: ⟨.setOutput false, r⟩ :: gaveUp) := by
      rw [hgave]
      split_ifs <;> exact ⟨by simp [busy, slowest, total, noted, XyOp.allowance]; omega,
        by simp [noted, XyOp.feeds]⟩
    have htried : Unfed T L _ (retried bs) := ⟨retried_busy_le hbs hlen.le, hunfed hbs⟩
    have hblock := (htried.append hend).block (x := subscribed) rfl
    refine ⟨hblock.begins, hblock.total_le.trans ?_⟩
    unfold bootNanos
    omega
  · have hall : ∀ b ∈ bs ++ [bootTalk profile buck check st limits], Attempted profile buck b :=
      List.forall_mem_append.2 ⟨hbs, List.forall_mem_singleton.2 (List.prefix_refl _)⟩
    have hboot : ∀ T L, Block (fun x => x.op.feeds) (bootNanos T L)
        (slowest T L (opening profile buck bs check st limits)) := fun T L => by
      have htried : Unfed T L _ (retried (bs ++ [bootTalk profile buck check st limits])) :=
        ⟨retried_busy_le hall (by rw [List.length_append]; exact hlen), hunfed hall⟩
      have hmodel : Unfed T L L ([⟨.publishModel check.deviceCode, ()⟩] : Talk F) :=
        ⟨by simp [busy, slowest, total, XyOp.allowance], by simp [XyOp.feeds]⟩
      have hblock := (htried.append hmodel).block (x := subscribed) rfl
      refine ⟨hblock.begins, hblock.total_le.trans ?_⟩
      unfold bootNanos
      omega
    rcases hrest with ⟨rfl, -⟩ | ⟨s, x', -, hloop, -⟩
    · exact ⟨_, [], rfl, opening_not_loopOnly hbs, by simp, hboot, by simp⟩
    · obtain ⟨cs, hcs, rfl⟩ := says_loop hloop
      exact ⟨_, cs, rfl, opening_not_loopOnly hbs, hcs.feeds, hboot, fun T L => hcs.blocks⟩

/-- The slowest timing is within the time a boot takes from the subscription, and then within the
time a turn takes from its feed. -/
theorem session_slowest {packTemp : PackTemp} {n : ℕ}
    {x : Option (Except Panic (ChargeSupervisor F))} {d : Talk F}
    (h : (session profile buck packTemp n).Says c x) (hd : d <+: c) (hne : d ≠ []) :
    ∃ t, unfed (slowest T L d) = some t ∧ (fed ∉ d → t ≤ bootNanos T L) ∧
      (fed ∈ d → t ≤ turnNanos T L) := by
  obtain ⟨boot, turns, rfl, hboot, hfeeds, hbooted, hturns⟩ := session_blocks h
  have hslow : ∀ {d : Talk F}, d ≠ [] → slowest T L d ≠ [] := fun hd => by simpa [slowest]
  have hparts : d <+: boot ∨ ∃ e, e ≠ [] ∧ e <+: turns.flatten ∧ d = boot ++ e := by
    rcases List.prefix_or_prefix_of_prefix hd (List.prefix_append boot turns.flatten) with
      hin | ⟨e, rfl⟩
    · exact .inl hin
    · by_cases hnil : e = []
      · exact .inl (by rw [hnil, List.append_nil])
      · exact .inr ⟨e, hnil, (List.prefix_append_right_inj boot).1 hd, rfl⟩
  rcases hparts with hin | ⟨e, hnil, he, rfl⟩
  · obtain ⟨t, ht, hunfed⟩ := (hbooted T L).elapsed_le (hin.map _) (hslow hne)
    exact ⟨t, hunfed, fun _ => ht, fun hfed => by cases hboot fed (hin.subset hfed)⟩
  have hfed : fed ∈ e := by
    obtain ⟨y, e, rfl⟩ := List.exists_cons_of_ne_nil hnil
    rcases turns with _ | ⟨c, turns⟩
    · cases List.prefix_nil.1 he
    · obtain ⟨c', rfl⟩ := hfeeds c List.mem_cons_self
      obtain ⟨rfl, -⟩ := List.cons_prefix_cons.1 he
      exact List.mem_cons_self
  have hblocks : ∀ l ∈ turns.map (slowest T L), Block (fun x => x.op.feeds) (turnNanos T L) l :=
    List.forall_mem_map.2 (hturns T L)
  have hmap : slowest T L e <+: (turns.map (slowest T L)).flatten := by
    have hflat : slowest T L turns.flatten = (turns.map (slowest T L)).flatten := List.map_flatten
    exact hflat ▸ he.map _
  obtain ⟨t, ht, hunfed⟩ := elapsed_le_of_blocks hblocks hmap (hslow hnil)
  refine ⟨t, ?_, fun hnot => absurd (List.mem_append_right boot hfed) hnot, fun _ => ht⟩
  rw [slowest, List.map_append]
  exact elapsed_append hunfed

end Boot

/-- Every time of a session is within the time a boot takes from the subscription, or within the
time a turn takes from its feed. So once the thread has fed the watchdog it does so in time, if five
calls to the buck and eighteen times the rest leave 8.9 s. -/
theorem fed_in_time [FloatLike F] {profile : Profile F} {buck : BuckSetup F} {packTemp : PackTemp}
    {n T L : ℕ} {c d : TimedTalk F} {x : Option (Except Panic (ChargeSupervisor F))}
    (h : (session profile buck packTemp n).Says (c.map Prod.fst) x)
    (hc : ∀ y ∈ c, y.2 ≤ y.1.op.allowance T L) (hd : d <+: c) (hne : d ≠ []) :
    ∃ t, unfed d = some t ∧ (fed ∉ d.map Prod.fst → t ≤ bootNanos T L) ∧
      (fed ∈ d.map Prod.fst → t ≤ turnNanos T L ∧
        (5 * T + 18 * L < 8900000000 → t < wdtTimeout.nanos)) := by
  have hshort : 5 * T + 18 * L < 8900000000 → turnNanos T L < wdtTimeout.nanos := by
    have hsettle : stepDownSettle.nanos = 100000000 := rfl
    have hpoll : pollInterval.nanos = 1000000000 := rfl
    have hwdt : wdtTimeout.nanos = 10000000000 := rfl
    unfold turnNanos transitionBuffer
    omega
  obtain ⟨m, hm, hboot, hturn⟩ := session_slowest (T := T) (L := L) h (hd.map Prod.fst) (by simpa)
  have hmap : slowest T L (d.map Prod.fst) = d.map fun y => (y.1, y.1.op.allowance T L) := by
    rw [slowest, List.map_map]
    rfl
  rw [hmap] at hm
  obtain ⟨t, ht, hunfed⟩ := elapsed_mono
    (f := fun x : Answered (XyOp F) XyOp.Reply => x.op.allowance T L)
    (fun y hy => hc y (hd.subset hy)) hm
  exact ⟨t, hunfed, fun hnot => ht.trans (hboot hnot), fun hfed => ⟨ht.trans (hturn hfed),
    fun hTL => (ht.trans (hturn hfed)).trans_lt (hshort hTL)⟩⟩

/-- Calls of 90 ms, and the rest at 10 ms each. -/
def timedTripped : TimedTalk Float32 := slowest 90000000 10000000 trippedSession

/-- Booted and in its turns, each time as long as it may be. -/
theorem fed_in_time_tripped : fed ∈ timedTripped.map Prod.fst ∧
    ∀ d, d <+: timedTripped → d ≠ [] → ∃ t, unfed d = some t ∧ t < wdtTimeout.nanos := by
  have hfst : timedTripped.map Prod.fst = trippedSession := by
    rw [timedTripped, slowest, List.map_map]
    exact List.map_id _
  have hwithin : ∀ y ∈ timedTripped, y.2 ≤ y.1.op.allowance 90000000 10000000 := by
    intro y hy
    obtain ⟨x, -, rfl⟩ := List.mem_map.1 hy
    exact le_rfl
  have hsays : (session packProfile buck .absent 2).Says (timedTripped.map Prod.fst)
      ((session packProfile buck .absent 2).converse tripped ()).2 := by
    rw [hfst]
    exact Prog.says_converse tripped _ ()
  refine ⟨?_, fun d hd hne => ?_⟩
  · have hany : (trippedSession.any fun y => match y.op with
        | .wdtReset => true
        | _ => false) = true := by
      decide +kernel
    obtain ⟨⟨op, r⟩, hmem, hop⟩ := List.any_eq_true.1 hany
    cases op <;> first | exact hfst ▸ hmem | cases hop
  · obtain ⟨t, ht, hboot, hturn⟩ := fed_in_time hsays hwithin hd hne
    refine ⟨t, ht, ?_⟩
    by_cases hfed : fed ∈ d.map Prod.fst
    · exact (hturn hfed).2 (by decide)
    · exact (hboot hfed).trans_lt (by decide)

end Esp32Battery
