import Esp32Battery.Proofs.Aim
import Esp32Battery.Proofs.FlapBudget
import Esp32Battery.Proofs.LoadFed

/-!
# The load is restored

Whatever the buck answered, and whatever it did to its output, a supervisor that has not disabled it
for good still holds the target V_SET was last told. So once the buck obliges again, on where the
supervisor has it on, and elsewhere off or on again by itself, the next status already shows the
load fed, and every one after it does.
-/

namespace Esp32Battery

open Lib Automaton

namespace Automaton

variable {drift : Phase → Prop} {output : Option BuckOutput} {v w : View} {a : Act}

theorem Judged.boot (h : Judged drift v w a) (hw : w.state = .boot) : v.state = .boot := by
  cases h with
  | trip | rise | fall => cases hw
  | park _ _ hn | toPark _ _ hn =>
    obtain ⟨-, rfl | ⟨rfl, -⟩⟩ := ChargeState.next_park hn <;> cases hw
  | inhibit | enable | retarget | idle => exact hw

/-- Nothing leads back to a cold boot. -/
theorem Beat.boot (h : Beat drift output v w a) (hw : w.state = .boot) : v.state = .boot := by
  cases h with
  | tripping | dark => exact hw
  | resurfaced | lost | pending => cases hw
  | agree _ hj => exact hj.boot hw
  | hold _ _ _ _ hn hj =>
    have hhold := ChargeState.next_selfDisabled hn
    obtain rfl := hj.boot hw
    cases hhold
  | resume _ hh hn hj =>
    have hsrc := ChargeState.next_selfEnabled hh hn
    obtain rfl := hj.boot hw
    cases hsrc

end Automaton

/-- A budget that does not fire is not exceeded. -/
theorem HoldBudget.step_unfired {h : HoldBudget} {e : Duration} (hf : (h.step e).1 = false) :
    (h.step e).2.holds ≤ maxHolds := by
  simpa [HoldBudget.step] using hf

namespace ChargeSupervisor

variable {F : Type} [FloatLike F] {s : ChargeSupervisor F}

/-- A machine that has not given up is within its holds. -/
theorem Reachable.within (h : s.Reachable) (hs : ¬ Terminal s.state) :
    s.holds.holds ≤ maxHolds := by
  cases h with
  | new h =>
    obtain ⟨-, -, rfl⟩ := new_eq_ok h
    exact Nat.zero_le _
  | turn _ h =>
    cases turn_verdict h with
    | decided s₁ hr ht hn => exact absurd ht hs
    | examined s₁ v s₂ hr hg hsame hraise hlatch =>
      obtain ⟨hholds, hfired⟩ := gauntlet_flap hg
      rw [hsame.holds, hholds]
      exact HoldBudget.step_unfired (by
        by_contra hf
        exact hs (hlatch _ (hfired.2 (by simpa using hf)) rfl).1)

end ChargeSupervisor

/-- What any past leaves: the registers it was told hold the supervisor's target, unless it has
given up, and the output was never told on before it left its cold boot. -/
structure Told (profile : Profile Float32) (s : ChargeSupervisor Float32) (regs : BuckRegs) :
    Prop where
  profile : s.profile = profile
  packTemp : s.packTemp = .absent
  iSet : regs.iSet = s.iSetA
  target : Aimed s (some regs.vSet)
  boot : s.state = .boot → regs.outputOn = false

section Turn

variable {profile : Profile Float32} {s s' s₁ s₂ : ChargeSupervisor Float32}
  {regs regs' regs₀ : BuckRegs} {past c : Talk Float32} {p : PollResult Float32} {e : Duration}
  {a : Action Float32} {log log' : ProtectionLog}

theorem Told.congr (h : Told profile s regs) (hb : s.SameBoard s') (hi : regs'.iSet = regs.iSet)
    (ht : Aimed s' (some regs'.vSet)) (hboot : s'.state = .boot → regs'.outputOn = false) :
    Told profile s' regs' where
  profile := hb.profile.trans h.profile
  packTemp := hb.packTemp.trans h.packTemp
  iSet := (hi.trans h.iSet).trans hb.iSetA.symm
  target := ht
  boot := hboot

/-- V_SET is where it was last told. -/
theorem foldl_retold_vSet : c.foldl retold (some regs.vSet) = some (regs.heard c).vSet := by
  induction c generalizing regs with
  | nil => rfl
  | cons x c ih =>
    have hx : retold (some regs.vSet) x = some (regs.after x).vSet := by
      obtain ⟨op, r⟩ := x
      cases op <;> first | rfl | (cases r <;> rfl)
    rw [List.foldl_cons, hx]
    exact ih

theorem Told.tick (h : Told profile s regs) (ht : s.tick p e = .ok (a, s₁)) :
    Told profile s₁ regs := by
  obtain ⟨act, hb, -⟩ := ChargeSupervisor.tick_beat ht
  exact h.congr (.of_tick ht) rfl (h.target.tick ht) fun hboot => h.boot (hb.boot hboot)

theorem Written.heard_iSet {t : VoltageTicket Float32} {o : VoltageWriteOutcome}
    (h : Written t c o) : (regs.heard c).iSet = regs.iSet := by
  cases h <;> rfl

theorem Applied.told (ha : Applied s₁ a c (.ok s₂)) (ht : s.tick p e = .ok (a, s₁))
    (h : Told profile s₁ regs) : Told profile s₂ (regs.heard c) := by
  have haim := ha.aimed ht h.target
  rw [foldl_retold_vSet] at haim
  obtain ⟨act, hb, hre⟩ := ChargeSupervisor.tick_beat ht
  generalize hx : Except.ok s₂ = x at ha
  cases ha with
  | none | unenabled | undisabled =>
    cases hx
    exact h
  | enabled t =>
    have hc : s₁.commit (.enableOutput t) = .ok s₂ := hx.symm
    have hact : act = .enable := by
      cases act <;> first | rfl | cases hre
    refine h.congr (.of_commit hc) rfl haim fun hboot => ?_
    obtain ⟨hcom, -, -⟩ := ChargeSupervisor.commit_committed hre hc
    rw [hact] at hcom
    generalize s₂.state = d at hcom hboot
    cases hcom with
    | enable resume hn =>
      revert hn
      rw [hboot]
      cases resume <;> cases s₁.state <;> rintro ⟨⟩
  | disabled t => exact h.congr (.of_commit (a := .disableOutput t) hx.symm) rfl haim fun _ => rfl
  | @retargeted t _ hw =>
    have hc : s₁.commit (.updateVoltage t) = .ok s₂ := hx.symm
    obtain ⟨hcom, -, -⟩ := ChargeSupervisor.commit_committed hre hc
    refine h.congr (.of_commit hc) hw.heard_iSet haim fun hboot => ?_
    cases act with
    | retarget phase =>
      have hsrc := hcom.sourcing (ChargeState.sourcing_of_retargetTo hb.retargetTo)
      rw [hboot] at hsrc
      cases hsrc
    | none | enable | disable => cases hre
  | @unretargeted t _ hw =>
    cases hx
    refine h.congr (.refl _) hw.heard_iSet haim fun hboot => ?_
    cases act with
    | retarget phase =>
      have hr : s₁.state.retargetTo = some phase := hb.retargetTo
      rw [hboot] at hr
      cases hr
    | none | enable | disable => cases hre

theorem Turned.told (h : Turned s log c (.ok (s', log'))) (hs : Told profile s (regs₀.heard past)) :
    Told profile s' (regs₀.heard (past ++ c)) := by
  generalize hx : Except.ok (s', log') = x at h
  cases h with
  | unjudged | unapplied | unpublished => cases hx
  | @turn c c' p _ elapsed a s₁ s₂ phase hp ht ha _ =>
    cases hx
    have hregs : regs₀.heard (past ++ (c ++ ⟨.lap, elapsed⟩ :: (c' ++ (s₂.drained ++
        [⟨.publish (s₂.status p phase), ()⟩, ⟨.sleep pollInterval, ()⟩]))))
          = (regs₀.heard past).heard c' := by
      have hquiet : ∀ x ∈ s₂.drained ++ [⟨.publish (s₂.status p phase), ()⟩,
          ⟨.sleep pollInterval, ()⟩], x.op.writes = false :=
        List.forall_mem_append.2 ⟨drained_not_writes s₂, by simp [XyOp.writes]⟩
      rw [heard_append, heard_append, heard_of_not_writes hp.not_writes]
      show BuckRegs.heard (regs₀.heard past) (c' ++ _) = _
      rw [heard_append, heard_of_not_writes hquiet]
    rw [hregs]
    have htold := ha.told ht (hs.tick ht)
    exact ⟨htold.1, htold.2, htold.3, htold.4, htold.5⟩

theorem LoopTurns.told {n : ℕ} {cs : List (Talk Float32)} (h : LoopTurns n s log cs (.ok s'))
    (hs : s.Reachable) (ht : Told profile s (regs₀.heard past)) :
    s'.Reachable ∧ Told profile s' (regs₀.heard (past ++ cs.flatten)) := by
  generalize hx : Except.ok s' = x at h
  induction h generalizing past with
  | done =>
    cases hx
    rw [List.flatten_nil, List.append_nil]
    exact ⟨hs, ht⟩
  | panic => cases hx
  | @turn _ s _ _ _ c _ _ h _ ih =>
    have hfed : Told profile s (regs₀.heard (past ++ [fed])) := by
      rw [heard_append]
      exact ht
    have hrest := ih (h.reachable hs) (h.told hfed) hx
    simpa [List.append_assoc] using hrest

end Turn

section Session

variable {profile : Profile Float32} {buck : BuckSetup Float32} {regs₀ regs : BuckRegs}
  {st : ChargeStatus} {s s' : ChargeSupervisor Float32} {log : ProtectionLog}
  {c c' c₁ c₂ : Talk Float32} {m n : ℕ}

/-- A loop that says more than so many turns goes on from the supervisor they leave. -/
theorem loop_add {x : Except Panic (ChargeSupervisor Float32)}
    (h : (loop m s log).Says c (.ok s')) (h' : (loop (m + n) s log).Says (c ++ c') x) :
    ∃ log', (loop n s' log').Says c' x := by
  induction m generalizing s log c with
  | zero =>
    obtain ⟨rfl, hs⟩ := Prog.says_pure.1 h
    cases hs
    rw [Nat.zero_add] at h'
    exact ⟨log, h'⟩
  | succ m ih =>
    rw [Nat.succ_add] at h'
    unfold loop at h h'
    obtain ⟨y, _, _, rfl, -, h, h'⟩ := h.bind_prefix h'
    rcases y with e | ⟨s₁, log₁⟩
    · cases (Prog.says_pure.1 h).2
    · exact ih h h'

/-- So does a session. -/
theorem session_add {packTemp : PackTemp} {x : Option (Except Panic (ChargeSupervisor Float32))}
    (h : (session profile buck packTemp m).Says c (some (.ok s)))
    (h' : (session profile buck packTemp (m + n)).Says (c ++ c') x) :
    ∃ log y, (loop n s log).Says c' y := by
  unfold session at h h'
  obtain ⟨_, _, _, rfl, -, h₁, h₁'⟩ := h.bind_prefix h'
  obtain ⟨code, _, _, rfl, -, h₂, h₂'⟩ := h₁.bind_prefix h₁'
  rcases code with _ | code
  · cases (Prog.says_pure.1 h₂).2
  obtain ⟨_, _, _, rfl, -, h₃, h₃'⟩ := h₂.bind_prefix h₂'
  rcases hs : ChargeSupervisor.new profile buck.iSetA packTemp with e | s₀
  · simp only [hs] at h₃
    cases (Prog.says_pure.1 h₃).2
  simp only [hs] at h₃ h₃'
  obtain ⟨y, d, _, rfl, hloop, h₄⟩ := Prog.says_bind.1 h₃
  obtain ⟨y', d', _, hd, hloop', h₄'⟩ := Prog.says_bind.1 h₃'
  obtain ⟨rfl, hy⟩ := Prog.says_pure.1 h₄
  cases hy
  obtain ⟨rfl, -⟩ := Prog.says_pure.1 h₄'
  rw [List.append_nil, List.append_nil] at hd
  obtain ⟨log, hlog⟩ := loop_add hloop (hd ▸ hloop')
  exact ⟨log, y', hlog⟩

/-- What a session's turns leave, the boot leaving the output off at the float target. -/
theorem session_told (regs₀ : BuckRegs)
    (h : (session profile buck .absent m).Says c (some (.ok s))) :
    s.Reachable ∧ Told profile s (regs₀.heard c) := by
  rcases says_session h with ⟨_, -, -, hnone, -⟩ |
    ⟨bs, check, st, limits, rest, -, -, -, rfl, ⟨-, e, he⟩ | ⟨s₀, x, hnew, hloop, hx⟩⟩
  · cases hnone
  · cases he
  · cases hx
    obtain ⟨cs, hcs, rfl⟩ := says_loop hloop
    refine hcs.told (.new hnew) ?_
    obtain ⟨-, -, rfl⟩ := ChargeSupervisor.new_eq_ok hnew
    rw [heard_opening]
    exact ⟨rfl, rfl, rfl, .inr ⟨.float, rfl, rfl⟩, fun _ => rfl⟩

/-- What a buck may be found as once it obliges again, `told` being what it was last told and `s`
the supervisor's state: V_SET and I_SET as told, no cause left, the output on where the supervisor
sources, and on nowhere it was not told on. -/
structure BuckRegs.Restored (regs told : BuckRegs) (s : ChargeState) : Prop where
  vSet : regs.vSet = told.vSet
  iSet : regs.iSet = told.iSet
  normal : regs.protection = .normal
  on : s.sourcing = true → regs.outputOn = true
  told : regs.outputOn = true → told.outputOn = true

theorem Told.feeding {told : BuckRegs} (h : Told profile s told) (hs : s.Reachable)
    (hlive : ¬ Terminal s.state) (hregs : regs.Restored told s.state) :
    Feeding profile (·.response = .park) s regs := by
  obtain ⟨phase, hp, hv⟩ := h.target.resolve_left hlive
  refine ⟨⟨h.profile, h.packTemp, hs.within hlive, fun r hr => ?_⟩,
    ⟨hregs.iSet.trans h.iSet, ⟨phase, hp, hregs.vSet.trans (Option.some.inj hv)⟩, fun hoff => ?_,
      fun hon => ?_⟩, hregs.normal⟩
  · rcases hresp : r.response with _ | _
    · exact absurd (hs.disablesForGood r hr hresp) hlive
    · rfl
  · have hdark : s.state.sourcing = false := by
      rw [← Bool.not_eq_true]
      intro hsome
      rw [hregs.on hsome] at hoff
      cases hoff
    revert hdark hlive
    cases s.state <;> simp [Terminal, ChargeState.sourcing, ChargeState.bringingUp]
  · have hboot : s.state ≠ .boot := fun hb => by
      cases (h.boot hb).symm.trans (hregs.told hon)
    revert hboot hlive
    cases s.state <;> simp [Terminal, ChargeState.sourcing, ChargeState.holding]

/-- After so many turns that have not disabled the buck for good, once it obliges and its pack is
healthy. -/
theorem load_restored {x : Option (Except Panic (ChargeSupervisor Float32))}
    (h : (session profile buck .absent m).Says c (some (.ok s))) (hlive : ¬ Terminal s.state)
    (hregs : regs.Restored (regs₀.heard c) s.state)
    (h' : (session profile buck .absent (m + n)).Says (c ++ c') x)
    (hob : Throughout (Obliging profile regs) [] c') (hc : c' = c₁ ++ ⟨.publish st, ()⟩ :: c₂) :
    (regs.heard c₁).outputOn = true ∧
      (∃ phase, st.phase = some phase ∧ (regs.heard c₁).vSet = match phase with
        | .float => profile.floatV
        | .absorb => profile.absorbV) ∧
      ∀ r, st.fault = some r → r.response = .park ∧ st.parked = true := by
  obtain ⟨hreach, htold⟩ := session_told regs₀ h
  obtain ⟨log, y, hloop⟩ := session_add h h'
  obtain ⟨cs, hcs, rfl⟩ := says_loop hloop
  have hI : Feeding profile (·.response = .park) s (regs.heard []) :=
    htold.feeding hreach hlive hregs
  have hpow := hcs.powered (fun r hr => by cases r <;> cases hr <;> rfl) hI hob
  have hcoherent : Throughout Candid [] cs.flatten := hcs.candid hreach
  rw [hc] at hpow hcoherent
  obtain ⟨hon, ⟨phase, hphase, hv⟩, hfault⟩ := hpow.at_entry st rfl
  obtain ⟨hco, -⟩ := hcoherent.at_entry st rfl
  refine ⟨hon, ⟨phase, hphase, hv⟩, fun r hr => ⟨hfault r hr, hco.parked.2 ⟨?_, ?_⟩⟩⟩
  · rw [hphase]
    rfl
  · rw [hr]
    rfl

end Session

section Longer

variable {profile : Profile Float32} {buck : BuckSetup Float32} {S : Type}
  {handle : S → (op : XyOp Float32) → op.Reply × S}

theorem loop_prefix (m n : ℕ) (s : ChargeSupervisor Float32) (log : ProtectionLog) (dev : S) :
    ((loop m s log).converse handle dev).1 <+: ((loop (m + n) s log).converse handle dev).1 := by
  induction m generalizing s log dev with
  | zero => exact List.nil_prefix
  | succ m ih =>
    rw [Nat.succ_add]
    unfold loop
    refine Prog.converse_bind_prefix ?_ _ dev
    rintro (e | ⟨s', log'⟩) dev'
    · exact List.prefix_rfl
    · exact ih s' log' dev'

/-- A longer session says first what a shorter one says. -/
theorem session_prefix {packTemp : PackTemp} (m n : ℕ) (dev : S) :
    ((session profile buck packTemp m).converse handle dev).1 <+:
      ((session profile buck packTemp (m + n)).converse handle dev).1 := by
  unfold session
  refine Prog.converse_bind_prefix (fun _ dev => ?_) _ dev
  refine Prog.converse_bind_prefix ?_ _ dev
  rintro (_ | code) dev
  · exact List.prefix_rfl
  refine Prog.converse_bind_prefix (fun _ dev => ?_) _ dev
  rcases ChargeSupervisor.new profile buck.iSetA packTemp with e | s
  · exact List.prefix_rfl
  · simp only [Prog.converse_bind_pure]
    exact loop_prefix m n s .new dev

end Longer

def found : BuckRegs := ⟨14.4, 10.0, true, .ovp⟩

/-- A buck that parks the charge in its third turn, loses its supply in the fourth, and does not
take the enable of the fifth. -/
def refusing (dev : BuckRegs × ℕ) (op : XyOp Float32) : op.Reply × (BuckRegs × ℕ) :=
  match op with
  | .readStatus =>
    let regs := if dev.2 = 4 then { dev.1 with outputOn := false } else dev.1
    (.ok {
      setpoints := { vSet := regs.vSet, iSet := regs.iSet }
      vOut := regs.vSet
      iOut := 0.0
      pOut := 0.0
      protection := if dev.2 = 4 then .lvp else regs.protection
      outputOn := regs.outputOn }, (regs, dev.2 + 1))
  | .setOutput on =>
    if on && dev.2 = 6 then (.error ⟨⟩, dev) else (.ok (), (dev.1.wrote (.setOutput on), dev.2))
  | .lap => (if dev.2 = 4 then maxCharge else .fromSecs 60, dev)
  | .batteryReading => (some ⟨13.0, -5.0, 65.0⟩, dev)
  | op => ((obliging dev.1 op).1, ((obliging dev.1 op).2, dev.2))

def refusingSession (n : ℕ) :=
  (session packProfile buck .absent n).converse refusing (found, 0)

instance (profile : Profile Float32) (voltage current : Float32) :
    Decidable (Healthy profile voltage current) :=
  decidable_of_iff (voltage.isFinite = true ∧ current.isFinite = true ∧
      ¬ profile.absorbV + ovMarginV < voltage ∧
      ¬ profile.regulationA * overcurrentTol < -current)
    ⟨fun h => ⟨h.1, h.2.1, h.2.2.1, h.2.2.2⟩, fun h => ⟨h.1, h.2, h.3, h.4⟩⟩

instance (profile : Profile Float32) (regs : BuckRegs) (past : Talk Float32) :
    ∀ x, Decidable (Obliging profile regs past x)
  | ⟨.readStatus, .error _⟩ => .isFalse fun ⟨_, h, _⟩ => by cases h
  | ⟨.readStatus, .ok st⟩ =>
    decidable_of_iff (st.setpoints = ⟨(regs.heard past).vSet, (regs.heard past).iSet⟩ ∧
        st.outputOn = (regs.heard past).outputOn ∧ st.protection = (regs.heard past).protection)
      ⟨fun h => ⟨st, rfl, h⟩, fun ⟨_, hst, h⟩ => by cases hst; exact h⟩
  | ⟨.setVoltage _, .error _⟩ | ⟨.setOutput _, .error _⟩ => .isFalse fun h => by cases h
  | ⟨.setVoltage _, .ok ()⟩ | ⟨.setOutput _, .ok ()⟩ => .isTrue rfl
  | ⟨.batteryReading, none⟩ => .isFalse fun ⟨_, h, _⟩ => by cases h
  | ⟨.batteryReading, some b⟩ =>
    decidable_of_iff (Healthy profile b.voltage b.current)
      ⟨fun h => ⟨b, rfl, h⟩, fun ⟨_, hb, h⟩ => by cases hb; exact h⟩
  | ⟨.checkModel, _⟩ | ⟨.readSafetyLimits, _⟩ | ⟨.setCurrentLimit _, _⟩ | ⟨.setSafetyLimits _, _⟩
  | ⟨.clearProtectionStatus, _⟩ | ⟨.setPowerOnDefault _, _⟩ | ⟨.wdtSubscribe, _⟩ | ⟨.wdtReset, _⟩
  | ⟨.sleep _, _⟩ | ⟨.lap, _⟩ | ⟨.record _, _⟩ | ⟨.updatePs _, _⟩ | ⟨.publishModel _, _⟩
  | ⟨.publish _, _⟩ => .isTrue trivial


/-- The charge parked, the supply lost and a bring-up refused: dark, with a fault on record and no
inhibit, and up again in the turn after. -/
theorem load_restored_refused : ∃ c s c₁ st c₂, c = (refusingSession 5).1 ∧
    (refusingSession 5).2 = some (.ok s) ∧ s.state = .holdParked ∧ s.fault = some .chargeTimeout ∧
    s.inhibit = none ∧ (refusingSession 6).1 = c ++ (c₁ ++ ⟨.publish st, ()⟩ :: c₂) ∧
    (BuckRegs.heard { found.heard c with outputOn := false } c₁).outputOn = true ∧
    st.parked = true := by
  have hdark : ((refusingSession 5).2.any fun r => r.toOption.any fun s =>
      s.state = .holdParked ∧ s.fault = some .chargeTimeout ∧ s.inhibit = none) = true := by
    decide +kernel
  rcases hend : (refusingSession 5).2 with _ | _ | s <;> rw [hend] at hdark
  · cases hdark
  · cases hdark
  obtain ⟨hstate, hfault, hinhibit⟩ := of_decide_eq_true hdark
  obtain ⟨c', hc'⟩ : ∃ c', (refusingSession 5).1 ++ c' = (refusingSession 6).1 :=
    session_prefix 5 1 (found, 0)
  have hlater : c' = (refusingSession 6).1.drop (refusingSession 5).1.length := by
    rw [show (refusingSession 6).1 = (refusingSession 5).1 ++ c' from hc'.symm, List.drop_left]
  have hregs : BuckRegs.Restored { found.heard (refusingSession 5).1 with outputOn := false }
      (found.heard (refusingSession 5).1) s.state := by
    refine ⟨rfl, rfl, by decide +kernel, fun hs => ?_, fun hon => by cases hon⟩
    rw [hstate] at hs
    cases hs
  have hob : Throughout (Obliging packProfile
      { found.heard (refusingSession 5).1 with outputOn := false }) [] c' := by
    rw [hlater]
    decide +kernel
  have hnext : (c'.any fun x => match x.op with
      | .publish st => st.parked
      | _ => false) = true := by
    rw [hlater]
    decide +kernel
  obtain ⟨⟨op, r⟩, hmem, hop⟩ := List.any_eq_true.1 hnext
  obtain ⟨c₁, c₂, hc⟩ := List.append_of_mem hmem
  cases op with
  | publish st =>
    have hsays : (session packProfile buck .absent 5).Says (refusingSession 5).1
        (some (.ok s)) := by
      rw [← hend]
      exact Prog.says_converse refusing _ _
    have hsays' : (session packProfile buck .absent (5 + 1)).Says ((refusingSession 5).1 ++ c')
        (refusingSession 6).2 := by
      rw [show (refusingSession 5).1 ++ c' = (refusingSession 6).1 from hc']
      exact Prog.says_converse refusing _ _
    obtain ⟨hon, -, -⟩ :=
      load_restored hsays (by simp [hstate, Terminal]) hregs hsays' hob hc
    have hlonger : (refusingSession 6).1 =
        (refusingSession 5).1 ++ (c₁ ++ ⟨.publish st, ()⟩ :: c₂) := by
      rw [← hc]
      exact hc'.symm
    exact ⟨_, s, c₁, st, c₂, rfl, rfl, hstate, hfault, hinhibit, hlonger, hon, hop⟩
  | _ => cases hop

end Esp32Battery
