import Mathlib

/-!
# Programs against a device

A `Prog` is a program that issues operations to a device and goes on with their replies. An `Env`
says what the device may do: what it may do by itself between two operations, and how it may answer
one. A run may be cut short at any point, as a reset cuts it. `Holds` is a triple over all runs,
the cut ones included: every operation is issued in a state where it is safe, and a run that
finishes ends in the postcondition. Over the part of the state that the device leaves alone, `wp`
computes it.
-/

namespace Lib

/-- The error of a failed operation, of which only the text is ever used. -/
structure DriverError where
deriving DecidableEq

/-- A program over the operations `Op`, an operation `op` being answered in `Reply op`. -/
inductive Prog (Op : Type) (Reply : Op → Type) (α : Type) where
  | pure (a : α)
  | call (op : Op) (k : Reply op → Prog Op Reply α)

namespace Prog

variable {Op : Type} {Reply : Op → Type} {α β : Type}

def bind : Prog Op Reply α → (α → Prog Op Reply β) → Prog Op Reply β
  | .pure a, f => f a
  | .call op k, f => .call op fun r => (k r).bind f

instance : Monad (Prog Op Reply) where
  pure := .pure
  bind := .bind

def perform (op : Op) : Prog Op Reply (Reply op) := .call op .pure

@[simp] theorem pure_bind' (a : α) (f : α → Prog Op Reply β) : (.pure a >>= f) = f a := rfl

@[simp] theorem call_bind (op : Op) (k : Reply op → Prog Op Reply α) (f : α → Prog Op Reply β) :
    (.call op k >>= f) = .call op fun r => k r >>= f := rfl

theorem perform_bind (op : Op) (f : Reply op → Prog Op Reply β) :
    (perform op >>= f) = .call op f := rfl

theorem bind_pure_id (p : Prog Op Reply α) : p.bind .pure = p := by
  induction p with
  | pure a => rfl
  | call op k ih => exact congrArg (call op) (funext ih)

theorem bind_bind {γ : Type} (p : Prog Op Reply α) (f : α → Prog Op Reply β)
    (g : β → Prog Op Reply γ) : (p.bind f).bind g = p.bind fun a => (f a).bind g := by
  induction p with
  | pure a => rfl
  | call op k ih => exact congrArg (call op) (funext ih)

instance : LawfulMonad (Prog Op Reply) :=
  LawfulMonad.mk' _ bind_pure_id (fun _ _ => rfl) bind_bind

/-- Every operation that `p` may issue is one of `ok`. -/
def Only (ok : Op → Prop) : Prog Op Reply α → Prop
  | .pure _ => True
  | .call op k => ok op ∧ ∀ r, Only ok (k r)

theorem Only.bind {ok : Op → Prop} {p : Prog Op Reply α} {f : α → Prog Op Reply β}
    (hp : p.Only ok) (hf : ∀ a, (f a).Only ok) : (p >>= f).Only ok := by
  induction p with
  | pure a => exact hf a
  | call op k ih => exact ⟨hp.1, fun r => ih r (hp.2 r)⟩

theorem Only.perform {ok : Op → Prop} {op : Op} (h : ok op) :
    (Prog.perform op : Prog Op Reply (Reply op)).Only ok :=
  ⟨h, fun _ => trivial⟩

variable {V : Type} {after : V → (op : Op) → Reply op → V → Prop} {safe : V → Op → Prop}

/-- From `v`, which only its operations change as `after` says, every operation that `p` issues is
safe, and `p` returns in `Q`. -/
def wp (after : V → (op : Op) → Reply op → V → Prop) (safe : V → Op → Prop)
    (Q : α → V → Prop) : Prog Op Reply α → V → Prop
  | .pure a, v => Q a v
  | .call op k, v => safe v op ∧ ∀ r v', after v op r v' → wp after safe Q (k r) v'

theorem wp.step {op : Op} {f : Reply op → Prog Op Reply α} {Q : α → V → Prop} {v : V}
    (hsafe : safe v op) (h : ∀ r v', after v op r v' → wp after safe Q (f r) v') :
    wp after safe Q (perform op >>= f) v := ⟨hsafe, h⟩

theorem wp.mono {p : Prog Op Reply α} {Q Q' : α → V → Prop} {v : V}
    (h : wp after safe Q p v) (hQ : ∀ a v, Q a v → Q' a v) : wp after safe Q' p v := by
  induction p generalizing v with
  | pure a => exact hQ a v h
  | call op k ih => exact ⟨h.1, fun r v' hv => ih r (h.2 r v' hv)⟩

theorem wp_bind {p : Prog Op Reply α} {f : α → Prog Op Reply β} {Q : β → V → Prop} {v : V} :
    wp after safe Q (p >>= f) v ↔ wp after safe (fun a => wp after safe Q (f a)) p v := by
  induction p generalizing v with
  | pure a => exact Iff.rfl
  | call op k ih =>
    rw [call_bind]
    exact and_congr_right fun _ => forall_congr' fun r => forall_congr' fun v' =>
      imp_congr_right fun _ => ih r

end Prog

/-- What a device in state `S` may do. -/
structure Env (S Op : Type) (Reply : Op → Type) where
  self : S → S → Prop
  answer : S → (op : Op) → Reply op → S → Prop

namespace Env

variable {S Op : Type} {Reply : Op → Type} {α β : Type} (E : Env S Op Reply)

/-- `E.Run p s tr o t`: from `s` the program issues the operations of `tr`, each with the state it
meets, and the device is left in `t`; `o` is what it returned, `none` if it was cut short. -/
inductive Run : Prog Op Reply α → S → List (S × Op) → Option α → S → Prop
  | done (a : α) (s : S) : Run (.pure a) s [] (some a) s
  | cut (p : Prog Op Reply α) (s : S) : Run p s [] none s
  | self {p : Prog Op Reply α} {s s' : S} {tr : List (S × Op)} {o : Option α} {t : S} :
      E.self s s' → Run p s' tr o t → Run p s tr o t
  | call {op : Op} {k : Reply op → Prog Op Reply α} {s s' : S} {r : Reply op}
      {tr : List (S × Op)} {o : Option α} {t : S} :
      E.answer s op r s' → Run (k r) s' tr o t → Run (.call op k) s ((s, op) :: tr) o t

/-- What the device cannot break by itself. -/
def Stable (P : S → Prop) : Prop := ∀ s s', E.self s s' → P s → P s'

/-- From `P`, every operation `p` issues is safe where it is issued, and `p` returns in `Q`. -/
def Holds (safe : S → Op → Prop) (P : S → Prop) (p : Prog Op Reply α) (Q : α → S → Prop) : Prop :=
  ∀ s tr o t, P s → E.Run p s tr o t → (∀ e ∈ tr, safe e.1 e.2) ∧ ∀ a, o = some a → Q a t

variable {E} {safe : S → Op → Prop} {P P' : S → Prop}

theorem run_bind {p : Prog Op Reply α} {f : α → Prog Op Reply β} {s t : S} {tr : List (S × Op)}
    {o : Option β} (h : E.Run (p >>= f) s tr o t) :
    (o = none ∧ E.Run p s tr none t) ∨ ∃ a tr₁ tr₂ u, tr = tr₁ ++ tr₂ ∧
      E.Run p s tr₁ (some a) u ∧ E.Run (f a) u tr₂ o t := by
  generalize hq : p >>= f = q at h
  induction h generalizing p with
  | done a s =>
    cases p with
    | pure b =>
      refine .inr ⟨b, [], [], s, rfl, .done b s, ?_⟩
      rw [← Prog.pure_bind' b f, hq]
      exact .done a s
    | call op k => cases hq
  | cut q s => exact .inl ⟨rfl, .cut p s⟩
  | self hs _ ih =>
    rcases ih hq with ⟨ho, hr⟩ | ⟨a, tr₁, tr₂, u, htr, h₁, h₂⟩
    · exact .inl ⟨ho, .self hs hr⟩
    · exact .inr ⟨a, tr₁, tr₂, u, htr, .self hs h₁, h₂⟩
  | @call op k s s' r tr o t ha hr ih =>
    cases p with
    | pure b =>
      refine .inr ⟨b, [], _, s, rfl, .done b s, ?_⟩
      rw [← Prog.pure_bind' b f, hq]
      exact .call ha hr
    | call op' k' =>
      rw [Prog.call_bind] at hq
      cases hq
      rcases ih rfl with ⟨ho, hr⟩ | ⟨a, tr₁, tr₂, u, rfl, h₁, h₂⟩
      · exact .inl ⟨ho, .call ha hr⟩
      · exact .inr ⟨a, _, tr₂, u, rfl, .call ha h₁, h₂⟩

theorem Run.bind {p : Prog Op Reply α} {f : α → Prog Op Reply β} {s u t : S}
    {tr₁ tr₂ : List (S × Op)} {a : α} {o : Option β} (h₁ : E.Run p s tr₁ (some a) u)
    (h₂ : E.Run (f a) u tr₂ o t) : E.Run (p >>= f) s (tr₁ ++ tr₂) o t := by
  generalize ho : some a = o' at h₁
  induction h₁ with
  | done b s =>
    cases ho
    exact h₂
  | cut p s => cases ho
  | self hse _ ih => exact .self hse (ih h₂ ho)
  | call ha _ ih => exact .call ha (ih h₂ ho)

theorem run_pure {a : α} {s t : S} {tr : List (S × Op)} {o : Option α}
    (h : E.Run (.pure a) s tr o t) : tr = [] ∧ (o = none ∨ o = some a) := by
  generalize hq : Prog.pure a = q at h
  induction h with
  | done b s =>
    cases hq
    exact ⟨rfl, .inr rfl⟩
  | cut p s => exact ⟨rfl, .inl rfl⟩
  | self _ _ ih => exact ih hq
  | call _ _ _ => cases hq

theorem run_perform_bind (op : Op) {f : Reply op → Prog Op Reply α} {s t : S}
    {tr : List (S × Op)} {o : Option α} (h : E.Run (Prog.perform op >>= f) s tr o t) :
    (tr = [] ∧ o = none) ∨
      ∃ u r u' tr', tr = (u, op) :: tr' ∧ E.answer u op r u' ∧ E.Run (f r) u' tr' o t := by
  rw [Prog.perform_bind] at h
  generalize hq : Prog.call op f = q at h
  induction h with
  | done b s => cases hq
  | cut p s => exact .inl ⟨rfl, rfl⟩
  | self _ _ ih => exact ih hq
  | call ha hr _ =>
    cases hq
    exact .inr ⟨_, _, _, _, rfl, ha, hr⟩

theorem Run.only {ok : Op → Prop} {p : Prog Op Reply α} {s t : S} {tr : List (S × Op)}
    {o : Option α} (h : E.Run p s tr o t) (hp : p.Only ok) : ∀ e ∈ tr, ok e.2 := by
  induction h with
  | done | cut => simp
  | self _ _ ih => exact ih hp
  | call _ _ ih =>
    intro e he
    rcases List.mem_cons.1 he with rfl | he
    · exact hp.1
    · exact ih (hp.2 _) e he

theorem Holds.pure {a : α} {Q : α → S → Prop} (hP : E.Stable P) (h : ∀ s, P s → Q a s) :
    E.Holds safe P (.pure a) Q := by
  intro s tr o t hs hr
  generalize hq : Prog.pure a = q at hr
  induction hr with
  | done b s => cases hq; exact ⟨by simp, fun _ ho => by cases ho; exact h _ hs⟩
  | cut p s => exact ⟨by simp, fun _ ho => by cases ho⟩
  | self hse _ ih => exact ih (hP _ _ hse hs) hq
  | call ha _ _ => cases hq

theorem Holds.call {op : Op} {k : Reply op → Prog Op Reply α} {Q : α → S → Prop}
    (R : Reply op → S → Prop) (hP : E.Stable P) (hsafe : ∀ s, P s → safe s op)
    (hans : ∀ s r s', P s → E.answer s op r s' → R r s')
    (hk : ∀ r, E.Holds safe (R r) (k r) Q) : E.Holds safe P (.call op k) Q := by
  intro s tr o t hs hr
  generalize hq : Prog.call op k = q at hr
  induction hr with
  | done b s => cases hq
  | cut p s => exact ⟨by simp, fun _ ho => by cases ho⟩
  | self hse _ ih => exact ih (hP _ _ hse hs) hq
  | call ha hr _ =>
    cases hq
    obtain ⟨h₁, h₂⟩ := hk _ _ _ _ _ (hans _ _ _ hs ha) hr
    refine ⟨fun e he => ?_, h₂⟩
    rcases List.mem_cons.1 he with rfl | he
    · exact hsafe _ hs
    · exact h₁ e he

theorem Holds.bind {p : Prog Op Reply α} {f : α → Prog Op Reply β} {R : α → S → Prop}
    {Q : β → S → Prop} (hp : E.Holds safe P p R) (hf : ∀ a, E.Holds safe (R a) (f a) Q) :
    E.Holds safe P (p >>= f) Q := by
  intro s tr o t hs hr
  rcases run_bind hr with ⟨rfl, hcut⟩ | ⟨a, tr₁, tr₂, u, rfl, h₁, h₂⟩
  · exact ⟨(hp _ _ _ _ hs hcut).1, fun _ ho => by cases ho⟩
  · obtain ⟨hs₁, hR⟩ := hp _ _ _ _ hs h₁
    obtain ⟨hs₂, hQ⟩ := hf a _ _ _ _ (hR a rfl) h₂
    refine ⟨fun e he => ?_, hQ⟩
    rcases List.mem_append.1 he with he | he
    · exact hs₁ e he
    · exact hs₂ e he

theorem Holds.mono {p : Prog Op Reply α} {Q Q' : α → S → Prop} (h : E.Holds safe P p Q)
    (hP : ∀ s, P' s → P s) (hQ : ∀ a s, Q a s → Q' a s) : E.Holds safe P' p Q' := by
  intro s tr o t hs hr
  obtain ⟨h₁, h₂⟩ := h s tr o t (hP s hs) hr
  exact ⟨h₁, fun a ho => hQ a t (h₂ a ho)⟩

theorem Holds.perform_bind {op : Op} {f : Reply op → Prog Op Reply α} {Q : α → S → Prop}
    (R : Reply op → S → Prop) (hP : E.Stable P) (hsafe : ∀ s, P s → safe s op)
    (hans : ∀ s r s', P s → E.answer s op r s' → R r s')
    (hf : ∀ r, E.Holds safe (R r) (f r) Q) : E.Holds safe P (Prog.perform op >>= f) Q :=
  .call R hP hsafe hans hf

theorem Holds.perform {op : Op} {R : Reply op → S → Prop} (hP : E.Stable P)
    (hsafe : ∀ s, P s → safe s op) (hans : ∀ s r s', P s → E.answer s op r s' → R r s')
    (hR : ∀ r, E.Stable (R r)) : E.Holds safe P (Prog.perform op) R :=
  .call R hP hsafe hans fun r => .pure (hR r) fun _ h => h

/-- What holds of the device for sure does not depend on how it is reached. -/
theorem Holds.assume {p : Prog Op Reply α} {Q : α → S → Prop} {c : Prop} (hc : ∀ s, P s → c)
    (h : c → E.Holds safe P p Q) : E.Holds safe P p Q :=
  fun s tr o t hs hr => h (hc s hs) s tr o t hs hr

/-- A triple may be proved state by state, each from what is kept of it. -/
theorem Holds.of_forall {p : Prog Op Reply α} {Q : α → S → Prop}
    (h : ∀ s, P s → ∃ R : S → Prop, R s ∧ E.Holds safe R p Q) : E.Holds safe P p Q := by
  intro s tr o t hs hr
  obtain ⟨R, hR, hp⟩ := h s hs
  exact hp s tr o t hR hr

/-- What the device leaves alone is the program's own: over that part of the state, a triple is a
weakest precondition. -/
theorem Holds.of_wp {V : Type} {view : S → V} {after : V → (op : Op) → Reply op → V → Prop}
    {safe : V → Op → Prop} (hself : ∀ s s', E.self s s' → view s' = view s)
    (hans : ∀ s op r s', E.answer s op r s' → after (view s) op r (view s'))
    {Q : α → V → Prop} {p : Prog Op Reply α} (h : ∀ s, P s → Prog.wp after safe Q p (view s)) :
    E.Holds (fun s => safe (view s)) P p fun a s => Q a (view s) := by
  intro s tr o t hs hr
  replace h := h s hs
  clear hs
  induction hr with
  | done a s => exact ⟨by simp, fun _ ho => by cases ho; exact h⟩
  | cut p s => exact ⟨by simp, fun _ ho => by cases ho⟩
  | self hse _ ih => exact ih (hself _ _ hse ▸ h)
  | call ha _ ih =>
    obtain ⟨h₁, h₂⟩ := ih (h.2 _ _ (hans _ _ _ _ ha))
    refine ⟨fun e he => ?_, h₂⟩
    rcases List.mem_cons.1 he with rfl | he
    · exact h.1
    · exact h₁ e he

/-- What the device keeps by itself, and in answering what it is safely asked, it ends with. -/
theorem Run.keeps {I : S → Prop} (hself : E.Stable I)
    (hans : ∀ s op r s', I s → safe s op → E.answer s op r s' → I s') {p : Prog Op Reply α}
    {s t : S} {tr : List (S × Op)} {o : Option α} (h : E.Run p s tr o t)
    (hsafe : ∀ e ∈ tr, safe e.1 e.2) (hs : I s) : I t := by
  induction h with
  | done | cut => exact hs
  | self hse _ ih => exact ih hsafe (hself _ _ hse hs)
  | call ha _ ih =>
    have hop := hsafe _ (List.mem_cons_self ..)
    exact ih (fun e he => hsafe e (List.mem_cons_of_mem _ he)) (hans _ _ _ _ hs hop ha)

theorem Run.selfs {p : Prog Op Reply α} {s u t : S} {tr : List (S × Op)} {o : Option α}
    (hs : Relation.ReflTransGen E.self s u) (h : E.Run p u tr o t) : E.Run p s tr o t := by
  induction hs using Relation.ReflTransGen.head_induction_on with
  | refl => exact h
  | head hse _ ih => exact .self hse ih

/-- A run may be cut where it issues an operation, or once that is answered. -/
theorem Run.upto {p : Prog Op Reply α} {s t : S} {tr : List (S × Op)} {o : Option α}
    (h : E.Run p s tr o t) {e : S × Op} (he : e ∈ tr) :
    ∃ tr₁ r u, tr₁ ++ [e] <+: tr ∧ E.Run p s tr₁ none e.1 ∧ E.answer e.1 e.2 r u ∧
      ∀ u', Relation.ReflTransGen E.self u u' → E.Run p s (tr₁ ++ [e]) none u' := by
  induction h with
  | done | cut => cases he
  | self hse _ ih =>
    obtain ⟨tr₁, r, u, hpre, hrun, ha, hafter⟩ := ih he
    exact ⟨tr₁, r, u, hpre, .self hse hrun, ha, fun u' hu' => .self hse (hafter u' hu')⟩
  | @call op k s s' r tr o t ha _ ih =>
    rcases List.mem_cons.1 he with rfl | he
    · refine ⟨[], r, s', ?_, .cut _ s, ha, fun u' hu' => .call ha (.selfs hu' (.cut _ u'))⟩
      exact ⟨tr, rfl⟩
    · obtain ⟨tr₁, r', u, ⟨tr₂, hpre⟩, hrun, ha', hafter⟩ := ih he
      refine ⟨(s, op) :: tr₁, r', u, ⟨tr₂, ?_⟩, .call ha hrun, ha', fun u' hu' =>
        .call ha (hafter u' hu')⟩
      rw [List.cons_append, List.cons_append, hpre]

/-- An operation that is safe where `P` holds and leaves it so. -/
structure Keeps (E : Env S Op Reply) (safe : S → Op → Prop) (P : S → Prop) (op : Op) : Prop where
  stable : E.Stable P
  safe : ∀ s, P s → safe s op
  answer : ∀ s r s', P s → E.answer s op r s' → P s'

theorem Keeps.bind {op : Op} {f : Reply op → Prog Op Reply α} {Q : α → S → Prop}
    (h : E.Keeps safe P op) (hf : ∀ r, E.Holds safe P (f r) Q) :
    E.Holds safe P (Prog.perform op >>= f) Q :=
  .perform_bind (fun _ => P) h.stable h.safe h.answer hf

theorem Keeps.perform {op : Op} (h : E.Keeps safe P op) :
    E.Holds safe P (Prog.perform op) fun _ => P :=
  .perform h.stable h.safe h.answer fun _ => h.stable

/-- The run a device with one answer to every operation makes. -/
def exec (handle : S → (op : Op) → Reply op × S) : Prog Op Reply α → S → List (S × Op) × α × S
  | .pure a, s => ([], a, s)
  | .call op k, s =>
    let r := handle s op
    let rest := exec handle (k r.1) r.2
    ((s, op) :: rest.1, rest.2)

theorem exec_run {handle : S → (op : Op) → Reply op × S}
    (h : ∀ s op, E.answer s op (handle s op).1 (handle s op).2) :
    ∀ (p : Prog Op Reply α) (s : S),
      E.Run p s (exec handle p s).1 (some (exec handle p s).2.1) (exec handle p s).2.2
  | .pure a, s => .done a s
  | .call op k, s => .call (h s op) (exec_run h (k (handle s op).1) (handle s op).2)

/-- The run of a device that follows a script: an operation that the script leaves out cuts the
run, and after answering one the device may act by itself. -/
def play (handle : S → (op : Op) → Option (Reply op × S)) :
    Prog Op Reply α → S → List (S × Op) × Option α × S
  | .pure a, s => ([], some a, s)
  | .call op k, s =>
    match handle s op with
    | none => ([], none, s)
    | some r =>
      let rest := play handle (k r.1) r.2
      ((s, op) :: rest.1, rest.2)

theorem play_run {handle : S → (op : Op) → Option (Reply op × S)}
    (h : ∀ s op r, handle s op = some r →
      ∃ u, E.answer s op r.1 u ∧ Relation.ReflTransGen E.self u r.2)
    (p : Prog Op Reply α) (s : S) :
    E.Run p s (play handle p s).1 (play handle p s).2.1 (play handle p s).2.2 := by
  induction p generalizing s with
  | pure a => exact .done a s
  | call op k ih =>
    unfold play
    split
    · exact .cut _ s
    · rename_i r hr
      obtain ⟨u, ha, hs⟩ := h s op r hr
      exact .call ha (Run.selfs hs (ih r.1 r.2))

end Env

end Lib
