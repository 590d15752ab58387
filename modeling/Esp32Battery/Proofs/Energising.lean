import Esp32Battery.Lib.Past
import Esp32Battery.Proofs.Aim
import Esp32Battery.Proofs.BootTalk
import Esp32Battery.Proofs.BuckLog
import Esp32Battery.Proofs.EnergiseGate

/-!
# Who switches the output on

In a whole session the output is asked for in two places only: where a turn that read it off, its
V_SET where it was last told and its pack healthy, brings it up, and where a step-down that has just
disabled it gives it back. Neither comes before a boot that read everything back as written.
-/

namespace Esp32Battery

open Lib Automaton

variable {F : Type}

/-- What a turn has read before it brings the output up, V_SET being last told as in `told`: an
output that is off, for no cause the buck clears by itself, setpoints on the target that was told,
and a finite sample below the overvoltage limit. -/
structure BringUp [FloatLike F] (profile : Profile F) (iSetA : F) (told : Option F) (st : Status F)
    (bat : Ina228Reading F) : Prop where
  off : st.outputOn = false
  cause : st.protection.isSelfClearing = false
  target : ∃ v, told = some v ∧ (v = profile.floatV ∨ v = profile.absorbV) ∧
    drifts st.setpoints ⟨v, iSetA⟩ = false
  finite : FloatLike.isFinite bat.voltage = true ∧ FloatLike.isFinite bat.current = true
  voltage : ¬ profile.absorbV + ovMarginV < bat.voltage

/-- The past ends with the poll of a turn that may bring the output up. -/
def MayBringUp [FloatLike F] (profile : Profile F) (iSetA : F) (past : Talk F) : Prop :=
  ∃ before, ∃ log : ProtectionLog, ∃ st bat elapsed,
    BringUp profile iSetA (lastTold before) st bat ∧
    past = before ++ (⟨.readStatus, .ok st⟩ :: log.notes st ++
      [⟨.updatePs (psReading st), ()⟩, ⟨.batteryReading, some bat⟩, ⟨.lap, elapsed⟩])

/-- The past ends with a step-down's disable, its pause and its write, and at most what came of the
write or of a first try to re-enable. -/
def MayRestore (past : Talk F) : Prop :=
  ∃ before v r after, past = before ++ ([⟨.setOutput false, .ok ()⟩, ⟨.sleep stepDownSettle, ()⟩,
      ⟨.setVoltage v, r⟩] ++ after) ∧
    (after = [] ∨ after = [noted (.xy .setVoltage)] ∨ ∃ e, after = [⟨.setOutput true, .error e⟩])

/-- An enable is one of the two. -/
def Justified [FloatLike F] (profile : Profile F) (iSetA : F) (past : Talk F)
    (x : Answered (XyOp F) XyOp.Reply) : Prop :=
  x.op = .setOutput true → MayBringUp profile iSetA past ∨ MayRestore past

section Turn

variable [FloatLike F] {profile : Profile F} {iSetA : F} {past c : Talk F}
  {s s' : ChargeSupervisor F} {log log' : ProtectionLog} {p : PollResult F}

/-- What enables nothing is justified, wherever it stands. -/
theorem justified_of_forall (h : ∀ x ∈ c, x.op ≠ .setOutput true) :
    Throughout (Justified profile iSetA) past c :=
  .of_forall fun x hx _ hop => absurd hop (h x hx)

omit [FloatLike F] in
theorem PolledAs.not_enable (h : PolledAs log c p log') : ∀ x ∈ c, x.op ≠ .setOutput true :=
  h.forall_op (P := (· ≠ .setOutput true)) (by simp) (by simp) (by simp) (by simp)

theorem justified_restore {v : F} {r : Except BusError Unit} {after : Talk F}
    (hafter : after = [] ∨ after = [noted (.xy .setVoltage)] ∨
      ∃ e, after = [⟨.setOutput true, .error e⟩]) (x : Answered (XyOp F) XyOp.Reply) :
    Justified profile iSetA (past ++ ([⟨.setOutput false, .ok ()⟩, ⟨.sleep stepDownSettle, ()⟩,
      ⟨.setVoltage v, r⟩] ++ after)) x :=
  fun _ => .inr ⟨past, v, r, after, rfl, hafter⟩

theorem Written.justified {t : VoltageTicket F} {o : VoltageWriteOutcome} (h : Written t c o) :
    Throughout (Justified profile iSetA) past c := by
  cases h with
  | live | unwritten | undisabled => exact justified_of_forall (by simp [noted])
  | cycled =>
    refine .append (l := [_, _, _]) (justified_of_forall (by simp)) ⟨?_, trivial⟩
    exact justified_restore (.inl rfl) _
  | secondTry e =>
    refine .append (l := [_, _, _]) (justified_of_forall (by simp)) ⟨?_, ?_, trivial⟩
    · exact justified_restore (.inl rfl) _
    · rw [List.append_assoc]
      exact justified_restore (.inr (.inr ⟨e, rfl⟩)) _
  | leftOff e e' =>
    refine .append (l := [_, _, _]) (justified_of_forall (by simp)) ⟨?_, ?_, ?_⟩
    · exact justified_restore (.inl rfl) _
    · rw [List.append_assoc]
      exact justified_restore (.inr (.inr ⟨e, rfl⟩)) _
    · exact justified_of_forall (by simp [noted])
  | restored e =>
    refine .append (l := [_, _, _, _]) (justified_of_forall (by simp [noted])) ⟨?_, trivial⟩
    exact justified_restore (.inr (.inl rfl)) _
  | unrestored e e' =>
    refine .append (l := [_, _, _, _]) (justified_of_forall (by simp [noted])) ⟨?_, ?_⟩
    · exact justified_restore (.inr (.inl rfl)) _
    · exact justified_of_forall (by simp [noted])

/-- A tick that asks for output-on was handed what a bring-up has to have read. -/
theorem bringUp_of_tick {st : Status F} {bat : Option (Ina228Reading F)} {e : Duration}
    {t : EnableTicket} {s₁ : ChargeSupervisor F} {told : Option F} (haim : Aimed s told)
    (h : s.tick ⟨sampleOf bat, some st.setpoints, some st.output, none⟩ e
      = .ok (.enableOutput t, s₁)) :
    ∃ r, bat = some r ∧ BringUp s.profile s.iSetA told st r := by
  obtain ⟨b, hg, -⟩ := ChargeSupervisor.tick_enable h
  obtain ⟨hb, hfin⟩ := Option.filter_eq_some_iff.1 hg.battery
  obtain ⟨r, rfl, rfl⟩ := Option.map_eq_some_iff.1 hb
  obtain ⟨phase, hphase, htold⟩ := haim.resolve_left (not_terminal (.inr hg.bringingUp))
  have hdrift := hg.drift
  rw [ChargeSupervisor.setpointsDrift_eq rfl hphase, Except.ok.injEq] at hdrift
  have htarget : s.voltageForPhase phase = s.profile.floatV ∨
      s.voltageForPhase phase = s.profile.absorbV := by
    cases phase
    · exact .inl rfl
    · exact .inr rfl
  obtain ⟨cause, hout, hclear⟩ := hg.output _ rfl
  refine ⟨r, rfl, ?_, ?_, ⟨_, htold, htarget, hdrift⟩, by simpa using hfin, ?_⟩
  · unfold Status.output at hout
    split_ifs at hout with hon
    simpa using hon
  · unfold Status.output at hout
    split_ifs at hout
    cases hout
    exact hclear
  · simpa [ChargeSupervisor.overvolts] using hg.voltage

theorem Applied.justified {a : Action F} {e : Duration} {x : Except Panic (ChargeSupervisor F)}
    {c' : Talk F} (haim : Aimed s (lastTold past)) (hp : PolledAs log c p log')
    (ht : s.tick p e = .ok (a, s')) (h : Applied s' a c' x) :
    Throughout (Justified s.profile s.iSetA) (past ++ (c ++ [⟨.lap, e⟩])) c' := by
  have henable : ∀ {t : EnableTicket}, a = .enableOutput t →
      MayBringUp s.profile s.iSetA (past ++ (c ++ [⟨.lap, e⟩])) := by
    rintro t rfl
    cases hp with
    | unread =>
      obtain ⟨b, hg, -⟩ := ChargeSupervisor.tick_enable ht
      cases hg.setpoints
    | read st bat =>
      obtain ⟨r, rfl, hup⟩ := bringUp_of_tick haim ht
      exact ⟨past, log, st, r, e, hup, by simp⟩
  cases h with
  | none => trivial
  | enabled t => exact ⟨fun _ => .inl (henable rfl), trivial⟩
  | unenabled t _ => exact ⟨fun _ => .inl (henable rfl), justified_of_forall (by simp [noted])⟩
  | disabled | undisabled => exact justified_of_forall (by simp [noted])
  | retargeted hw | unretargeted hw => exact hw.justified

theorem Turned.justified {x : Except Panic (ChargeSupervisor F × ProtectionLog)}
    (haim : Aimed s (lastTold past)) (h : Turned s log c x) :
    Throughout (Justified s.profile s.iSetA) past c := by
  have polled : ∀ {c : Talk F} {p : PollResult F} {log' : ProtectionLog} {e : Duration},
      PolledAs log c p log' → Throughout (Justified s.profile s.iSetA) past (c ++ [⟨.lap, e⟩]) :=
    fun hp => .append (justified_of_forall hp.not_enable) (justified_of_forall (by simp))
  have drained : ∀ (s' : ChargeSupervisor F) {past : Talk F},
      Throughout (Justified s.profile s.iSetA) past s'.drained := fun s' past =>
    justified_of_forall (drained_forall_op (P := (· ≠ .setOutput true)) (by simp) s')
  cases h with
  | unjudged hp _ => exact polled hp
  | unapplied hp ht ha =>
    rw [List.append_cons]
    exact (polled hp).append (ha.justified haim hp ht)
  | unpublished hp ht ha _ =>
    rw [List.append_cons]
    exact (polled hp).append ((ha.justified haim hp ht).append (drained _))
  | turn hp ht ha _ =>
    rw [List.append_cons]
    refine (polled hp).append ((ha.justified haim hp ht).append ((drained _).append ?_))
    exact justified_of_forall (by simp)

omit [FloatLike F] in
theorem Applied.sameBoard {a : Action F} (h : Applied s a c (.ok s')) : s.SameBoard s' := by
  generalize hx : Except.ok s' = x at h
  cases h with
  | none | unenabled | undisabled | unretargeted =>
    cases hx
    exact .refl s
  | enabled t => exact .of_commit (a := .enableOutput t) hx.symm
  | disabled t => exact .of_commit (a := .disableOutput t) hx.symm
  | @retargeted t _ _ => exact .of_commit (a := .updateVoltage t) hx.symm

theorem Turned.sameBoard (h : Turned s log c (.ok (s', log'))) : s.SameBoard s' := by
  generalize hx : Except.ok (s', log') = x at h
  cases h with
  | unjudged | unapplied | unpublished => cases hx
  | turn _ ht ha _ =>
    cases hx
    exact ((ChargeSupervisor.SameBoard.of_tick ht).trans ha.sameBoard).trans ⟨rfl, rfl, rfl⟩

theorem LoopTurns.justified {n : ℕ} {cs : List (Talk F)} {x : Except Panic (ChargeSupervisor F)}
    (haim : Aimed s (lastTold past)) (h : LoopTurns n s log cs x) :
    Throughout (Justified s.profile s.iSetA) past cs.flatten := by
  refine h.throughout (I := fun t past =>
    Aimed t (lastTold past) ∧ t.profile = s.profile ∧ t.iSetA = s.iSetA) ?_ ?_ ⟨haim, rfl, rfl⟩
  · intro t past ht
    refine ⟨fun h => (by cases h), ?_⟩
    rw [lastTold_append]
    exact ht
  · rintro t log past c x ⟨haim, hprofile, hset⟩ hturn
    rw [← hprofile, ← hset]
    refine ⟨hturn.justified haim, ?_⟩
    rintro t' log' rfl
    have hboard := hturn.sameBoard
    exact ⟨hturn.aimed haim, hboard.profile, hboard.iSetA⟩

end Turn

section Session

variable [FloatLike F] {profile : Profile F} {buck : BuckSetup F} {c : Talk F}

omit [FloatLike F] in
/-- A boot that succeeds leaves V_SET told the float target. -/
theorem lastTold_opening {bs : List (Talk F)} {check : ModelCheck} {st : Status F}
    {limits : SafetyLimits F} :
    lastTold (opening profile buck bs check st limits) = some profile.floatV := by
  obtain ⟨before, hb⟩ := retried_concat bs (bootTalk profile buck check st limits)
  rw [opening, hb, List.append_assoc, ← List.cons_append, lastTold_append]
  rfl

/-- Whatever the buck answers, before every enable of a session stand a boot that was verified and
the poll of a bring-up or the disable and write of a step-down. -/
theorem energised_only {packTemp : PackTemp} {n : ℕ}
    {x : Option (Except Panic (ChargeSupervisor F))} {c₁ c₂ : Talk F} {r : Except BusError Unit}
    (h : (session profile buck packTemp n).Says c x)
    (hc : c = c₁ ++ ⟨.setOutput true, r⟩ :: c₂) :
    (∃ bs check st limits post, bs.length < bootRetryCount ∧
      Verified profile buck check st limits ∧
      c₁ = opening profile buck bs check st limits ++ post) ∧
    (MayBringUp profile buck.iSetA c₁ ∨ MayRestore c₁) := by
  obtain ⟨bs, check, st, limits, post, s, x', hlen, hv, rfl, hnew, hloop⟩ := session_loop h rfl hc
  refine ⟨⟨bs, check, st, limits, post, hlen, hv, rfl⟩, ?_⟩
  obtain ⟨cs, hcs, hflat⟩ := says_loop hloop
  obtain ⟨-, -, rfl⟩ := ChargeSupervisor.new_eq_ok hnew
  have hall : Throughout (Justified profile buck.iSetA)
      (opening profile buck bs check st limits) cs.flatten :=
    hcs.justified (.inr ⟨.float, rfl, lastTold_opening⟩)
  rw [← hflat] at hall
  exact hall.at_entry rfl

end Session

def trippedSession : Talk Float32 :=
  ((session packProfile buck .absent 2).converse tripped ()).1

/-- The bring-up of a buck that takes no enable, and still shows the cause it tripped on. -/
theorem energised_only_tripped : ∃ c₁ c₂ r, trippedSession = c₁ ++ ⟨.setOutput true, r⟩ :: c₂ ∧
    (MayBringUp packProfile buck.iSetA c₁ ∨ MayRestore c₁) := by
  have hany : (trippedSession.any fun x => match x.op with
      | .setOutput on => on
      | _ => false) = true := by
    decide +kernel
  obtain ⟨⟨op, r⟩, hmem, hop⟩ := List.any_eq_true.1 hany
  obtain ⟨c₁, c₂, hc⟩ := List.append_of_mem hmem
  cases op with
  | setOutput on =>
    obtain rfl : on = true := hop
    exact ⟨c₁, c₂, r, hc, (energised_only (Prog.says_converse tripped _ ()) hc).2⟩
  | _ => cases hop

end Esp32Battery
