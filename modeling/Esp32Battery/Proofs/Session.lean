import Esp32Battery.Proofs.Loop

/-!
# The rule of a whole session

A boot programs the buck from whatever state a reset left it in: its output is disabled before
V_SET is written, and what is written stays. The loop's invariant then starts from there.
-/

namespace Esp32Battery

open Lib

variable {F : Type} {S : Type} {E : Env S (XyOp F) XyOp.Reply}
  {safe : S → XyOp F → Prop} {P : S → Prop}

theorem run_bus_bind {α β : Type} (p : XyProg F (Except BusError α))
    (f : α → ExceptT (BootError F) (XyProg F) β) : (bus p >>= f).run =
      p >>= fun r => match r with
        | .ok a => (f a).run
        | .error e => pure (.error (.bus e)) := by
  rw [ExceptT.run_bind]
  show (p >>= _) >>= _ = _
  rw [bind_assoc]
  congr 1
  funext r
  cases r <;> rfl

theorem run_verify_bind [FloatLike F] {β : Type} (what : String) (expected actual : F)
    (f : Unit → ExceptT (BootError F) (XyProg F) β) : (verify what expected actual >>= f).run =
      if FloatLike.abs (expected - actual) < setpointDriftTol then (f ()).run
      else pure (.error (.verify what expected actual)) := by
  rw [ExceptT.run_bind]
  unfold verify
  split_ifs <;> rfl

/-- What the boot sequence needs of the buck to end with `done` of it: an output that is off from
the disable to the V_SET write, and writes that stay. -/
structure BootInvariant (E : Env S (XyOp F) XyOp.Reply) (safe : S → XyOp F → Prop)
    (profile : Profile F) (buck : BuckSetup F) (off set done : S → Prop) : Prop where
  others : ∀ s op, (∀ v, op ≠ .setVoltage v) → safe s op
  off_stable : E.Stable off
  set_stable : E.Stable set
  done_stable : E.Stable done
  disabled : ∀ s s', E.answer s (.setOutput false) (.ok ()) s' → off s'
  cleared : ∀ s s', off s → E.answer s .clearProtectionStatus (.ok ()) s' → off s'
  defaulted : ∀ s s', off s → E.answer s (.setPowerOnDefault false) (.ok ()) s' → off s'
  limited : ∀ s s', off s → E.answer s (.setSafetyLimits buck.limits) (.ok ()) s' → off s'
  writable : ∀ s, off s → safe s (.setVoltage profile.floatV)
  written : ∀ s s', off s → E.answer s (.setVoltage profile.floatV) (.ok ()) s' → set s'
  current : ∀ s s', set s → E.answer s (.setCurrentLimit buck.iSetA) (.ok ()) s' → done s'
  status : ∀ s st s', done s → E.answer s .readStatus (.ok st) s' → done s'
  limits : ∀ s p s', done s → E.answer s .readSafetyLimits (.ok p) s' → done s'

/-- A boot that succeeds ends with `done`. -/
def Booted {ε α : Type} (done : S → Prop) (x : Except ε α) (dev : S) : Prop :=
  ∀ a, x = .ok a → done dev

theorem booted_stable {ε α : Type} {done : S → Prop} (h : E.Stable done) (x : Except ε α) :
    E.Stable (Booted done x) :=
  fun s s' hs hx a ha => h s s' hs (hx a ha)

section Boot

variable {done : S → Prop}

theorem holds_error {ε α : Type} (e : ε) :
    E.Holds safe P (pure (.error e)) (Booted (α := α) done) := by
  refine .mono (P := fun _ => True) (.pure (fun _ _ _ _ => trivial) ?_) (fun _ _ => trivial)
    fun _ _ hQ => hQ
  exact fun _ _ _ h => by cases h

theorem holds_bus {α β : Type} {p : XyProg F (Except BusError α)}
    {f : α → ExceptT (BootError F) (XyProg F) β} {R : S → Prop}
    (hp : E.Holds safe P p (Booted R)) (hf : ∀ a, E.Holds safe R (f a).run (Booted done)) :
    E.Holds safe P (bus p >>= f).run (Booted done) := by
  rw [run_bus_bind]
  refine hp.bind ?_
  rintro (e | a)
  · exact holds_error _
  · exact (hf a).mono (fun _ hR => hR a rfl) fun _ _ hQ => hQ

theorem holds_verify [FloatLike F] {β : Type} {what : String} {expected actual : F}
    {f : Unit → ExceptT (BootError F) (XyProg F) β}
    (hf : E.Holds safe P (f ()).run (Booted done)) :
    E.Holds safe P (verify what expected actual >>= f).run (Booted done) := by
  rw [run_verify_bind]
  split_ifs
  · exact hf
  · exact holds_error _

end Boot

namespace BootInvariant

variable [FloatLike F] {profile : Profile F} {buck : BuckSetup F} {off set done : S → Prop}
  (h : BootInvariant E safe profile buck off set done)

include h

theorem bootSequence : E.Holds safe (fun _ => True) (bootSequence profile buck).run
    (Booted done) := by
  have htrue : E.Stable fun _ => True := fun _ _ _ _ => trivial
  have hsafe : ∀ {P : S → Prop} {op : XyOp F}, (∀ v, op ≠ .setVoltage v) →
      ∀ s, P s → safe s op := fun hop s _ => h.others s _ hop
  unfold Esp32Battery.bootSequence
  refine holds_bus (R := fun _ => True) (.perform htrue (hsafe (by simp))
    (fun _ _ _ _ _ _ _ => trivial) (booted_stable htrue)) fun check => ?_
  by_cases hscales : (!check.scalesMatch) = true
  · rw [if_pos hscales]
    exact holds_error _
  rw [if_neg hscales]
  refine holds_bus (.perform htrue (hsafe (by simp))
    (fun s _ s' _ ha _ hr => h.disabled s s' (hr ▸ ha)) (booted_stable h.off_stable)) fun _ => ?_
  refine holds_bus (.perform h.off_stable (hsafe (by simp))
    (fun s _ s' hs ha _ hr => h.cleared s s' hs (hr ▸ ha)) (booted_stable h.off_stable)) fun _ => ?_
  refine holds_bus (.perform h.off_stable (hsafe (by simp))
    (fun s _ s' hs ha _ hr => h.defaulted s s' hs (hr ▸ ha))
    (booted_stable h.off_stable)) fun _ => ?_
  refine holds_bus (.perform h.off_stable (hsafe (by simp))
    (fun s _ s' hs ha _ hr => h.limited s s' hs (hr ▸ ha)) (booted_stable h.off_stable)) fun _ => ?_
  refine holds_bus (.perform h.off_stable h.writable
    (fun s _ s' hs ha _ hr => h.written s s' hs (hr ▸ ha)) (booted_stable h.set_stable)) fun _ => ?_
  refine holds_bus (.perform h.set_stable (hsafe (by simp))
    (fun s _ s' hs ha _ hr => h.current s s' hs (hr ▸ ha))
    (booted_stable h.done_stable)) fun _ => ?_
  refine holds_bus (.perform h.done_stable (hsafe (by simp))
    (fun s _ s' hs ha st hr => h.status s st s' hs (hr ▸ ha))
    (booted_stable h.done_stable)) fun st => ?_
  refine holds_verify (holds_verify ?_)
  refine holds_bus (.perform h.done_stable (hsafe (by simp))
    (fun s _ s' hs ha p hr => h.limits s p s' hs (hr ▸ ha))
    (booted_stable h.done_stable)) fun p => ?_
  refine holds_verify (holds_verify (holds_verify ?_))
  by_cases hon : st.outputOn = true
  · rw [if_pos hon]
    exact holds_error _
  · rw [if_neg hon]
    exact .pure h.done_stable fun s hs _ _ => hs

theorem bootAttempts (left : ℕ) : E.Holds safe (fun _ => True) (bootAttempts profile buck left)
    fun x dev => ∀ code, x = some code → done dev := by
  have htrue : E.Stable fun _ => True := fun _ _ _ _ => trivial
  induction left with
  | zero => exact .pure htrue fun _ _ _ hx => by cases hx
  | succ left ih =>
    unfold Esp32Battery.bootAttempts
    refine Env.Holds.bind (R := fun _ _ => True) ?_ fun _ => ?_
    · unfold bootPause
      split_ifs
      · exact .perform htrue (fun s _ => h.others s _ (by simp)) (fun _ _ _ _ _ => trivial)
          fun _ => htrue
      · exact .pure htrue fun _ _ => trivial
    refine h.bootSequence.bind ?_
    rintro (e | code)
    · exact ih.mono (fun _ _ => trivial) fun _ _ hQ => hQ
    · refine .mono (P := done) (.pure h.done_stable fun s hs _ _ => hs)
        (fun _ hs => hs code rfl) fun _ _ hQ => hQ

theorem bootWithRetries : E.Holds safe (fun _ => True) (bootWithRetries profile buck)
    fun x dev => ∀ code, x = some code → done dev := by
  have htrue : E.Stable fun _ => True := fun _ _ _ _ => trivial
  have hstep : ∀ {op : XyOp F} {f : op.Reply → XyProg F (Option ℕ)},
      (∀ v, op ≠ .setVoltage v) → (∀ r, E.Holds safe (fun _ => True) (f r)
        fun x dev => ∀ code, x = some code → done dev) →
      E.Holds safe (fun _ => True) (Prog.perform op >>= f)
        fun x dev => ∀ code, x = some code → done dev := fun hop hf =>
    .perform_bind (fun _ _ => True) htrue (fun s _ => h.others s _ hop)
      (fun _ _ _ _ _ => trivial) hf
  unfold Esp32Battery.bootWithRetries
  refine (h.bootAttempts bootRetryCount).bind ?_
  rintro (_ | code)
  · refine .mono (P := fun _ => True) ?_ (fun _ _ => trivial) fun _ _ hQ => hQ
    refine hstep (by simp) fun _ => hstep (by simp) ?_
    rintro (e | _)
    · exact hstep (by simp) fun _ => .pure htrue fun _ _ _ hx => by cases hx
    · exact .pure htrue fun _ _ _ hx => by cases hx
  · exact .mono (P := done) (.pure h.done_stable fun s hs _ _ => hs) (fun _ hs => hs code rfl)
      fun _ _ hQ => hQ

/-- A session that gets as far as the loop keeps the loop's invariant. -/
theorem session {I J : ChargeSupervisor F → S → Prop}
    {K : ChargeSupervisor F → PollResult F → S → Prop}
    {L : ChargeSupervisor F → PollResult F → Duration → S → Prop} (hl : LoopRule E safe I K L J)
    (packTemp : PackTemp) {ready : S → Prop} (hready : E.Stable ready)
    (hpublish : ∀ code, E.Holds safe done (XyOp.perform (.publishModel code)) fun _ => ready)
    (hinit : ∀ s, ChargeSupervisor.new profile buck.iSetA packTemp = .ok s →
      ∀ dev, ready dev → I s dev) (n : ℕ) :
    E.Holds safe (fun _ => True) (session profile buck packTemp n)
      fun x dev => ∀ s, x = some (.ok s) → I s dev := by
  unfold Esp32Battery.session
  refine .perform_bind (fun _ _ => True) (fun _ _ _ _ => trivial)
    (fun s _ => h.others s _ (by simp)) (fun _ _ _ _ _ => trivial) fun _ => ?_
  refine h.bootWithRetries.bind ?_
  rintro (_ | code)
  · exact .pure (fun _ _ _ _ _ hx => by cases hx) fun _ _ _ hx => by cases hx
  refine .mono (P := done) ?_ (fun _ hs => hs code rfl) fun _ _ hQ => hQ
  refine (hpublish code).bind fun _ => ?_
  rcases hs : ChargeSupervisor.new profile buck.iSetA packTemp with e | s <;> simp only []
  · exact .pure hready fun _ _ _ hx => by cases hx
  refine .mono (P := I s) ?_ (hinit s hs) fun _ _ hQ => hQ
  refine (hl.loop n s .new).bind fun x => ?_
  refine .pure ?_ fun dev hI s' hx => hI s' (by cases hx; rfl)
  rcases x with e | s'
  · exact fun _ _ _ _ s' hx => by cases hx
  · exact fun dev dev' hself hI s'' hx => (hl.sleeps s'').stable dev dev' hself (hI s'' hx)

end BootInvariant

end Esp32Battery
