import Mathlib

/-!
# A screen in layers

Each layer has a region of the screen and an image for each key it may show. It is repainted only
when the key it is to show is not the one it shows. Regions being disjoint, what is on the screen
is told by the keys shown alone, whatever was painted before.
-/

namespace Lib

/-- Disjoint regions of a screen, and what each looks like under each of its keys. -/
structure Layers (ι α β : Type*) (κ : ι → Type*) where
  region : ι → α → Prop
  image : (i : ι) → κ i → α → β
  disjoint : ∀ {i j p}, region i p → region j p → i = j

namespace Layers

variable {ι α β : Type*} {κ : ι → Type*}

/-- What is on the screen, and the key each layer was last painted with. -/
@[ext]
structure State (ι α β : Type*) (κ : ι → Type*) where
  screen : α → β
  shown : (i : ι) → Option (κ i)

variable [DecidableEq ι] (L : Layers ι α β κ)

open Classical in
omit [DecidableEq ι] in
noncomputable def overlay (i : ι) (k : κ i) (screen : α → β) : α → β :=
  fun p => if L.region i p then L.image i k p else screen p

open Classical in
/-- Bring layer `i` to `k`. -/
noncomputable def refresh (i : ι) (k : κ i) (s : State ι α β κ) : State ι α β κ :=
  if s.shown i = some k then s
  else ⟨L.overlay i k s.screen, Function.update s.shown i (some k)⟩

/-- Over `base`, the screen shows of each layer the key it is said to show. -/
structure Shows (base : α → β) (s : State ι α β κ) : Prop where
  layer : ∀ i p, L.region i p → s.screen p = (s.shown i).elim (base p) (L.image i · p)
  rest : ∀ p, (∀ i, ¬ L.region i p) → s.screen p = base p

variable {L} {base : α → β} {s s' : State ι α β κ} {i : ι} {k : κ i}

@[simp] theorem shown_refresh_self : (L.refresh i k s).shown i = some k := by
  unfold refresh
  split_ifs with h
  · exact h
  · exact Function.update_self ..

theorem shown_refresh_of_ne {j : ι} (h : j ≠ i) : (L.refresh i k s).shown j = s.shown j := by
  unfold refresh
  split_ifs
  · rfl
  · exact Function.update_of_ne h ..

theorem refresh_of_shown (h : s.shown i = some k) : L.refresh i k s = s := if_pos h

theorem screen_refresh (h : s.shown i ≠ some k) :
    (L.refresh i k s).screen = L.overlay i k s.screen := by
  unfold refresh
  rw [if_neg h]

/-- What paints a layer, and it alone, refreshes it. -/
theorem eq_refresh (h : s.shown i ≠ some k) (hscreen : s'.screen = L.overlay i k s.screen)
    (hself : s'.shown i = some k) (hrest : ∀ j, j ≠ i → s'.shown j = s.shown j) :
    s' = L.refresh i k s := by
  refine State.ext (hscreen.trans (screen_refresh h).symm) (funext fun j => ?_)
  by_cases hj : j = i
  · subst hj
    rw [hself, shown_refresh_self]
  · rw [hrest j hj, shown_refresh_of_ne hj]

/-- A refresh keeps what is shown true, whether or not it paints. -/
theorem Shows.refresh (h : L.Shows base s) : L.Shows base (L.refresh i k s) := by
  by_cases hk : s.shown i = some k
  · rwa [refresh_of_shown hk]
  refine ⟨fun j p hp => ?_, fun p hp => ?_⟩
  · rw [screen_refresh hk]
    unfold overlay
    by_cases hj : j = i
    · subst hj
      rw [if_pos hp, shown_refresh_self]
      rfl
    · rw [if_neg fun hi => hj (L.disjoint hp hi), shown_refresh_of_ne hj]
      exact h.layer j p hp
  · rw [screen_refresh hk]
    unfold overlay
    rw [if_neg (hp i)]
    exact h.rest p hp

variable (L) in
/-- Bring each of `l` to its key, in order. -/
noncomputable def refreshAll (key : (i : ι) → κ i) (l : List ι) (s : State ι α β κ) :
    State ι α β κ :=
  l.foldl (fun s i => L.refresh i (key i) s) s

theorem Shows.refreshAll {key : (i : ι) → κ i} {l : List ι} (h : L.Shows base s) :
    L.Shows base (L.refreshAll key l s) := by
  unfold Layers.refreshAll
  induction l generalizing s with
  | nil => exact h
  | cons i l ih => exact ih h.refresh

/-- A layer at its key stays at it, -/
theorem shown_refreshAll_of_shown {key : (i : ι) → κ i} {l : List ι}
    (h : s.shown i = some (key i)) : (L.refreshAll key l s).shown i = some (key i) := by
  unfold refreshAll
  induction l generalizing s with
  | nil => exact h
  | cons j l ih =>
    refine ih ?_
    by_cases hij : i = j
    · subst hij
      exact shown_refresh_self
    · exact (shown_refresh_of_ne hij).trans h

/-- and one that is refreshed is brought to it. -/
theorem shown_refreshAll {key : (i : ι) → κ i} {l : List ι} (h : i ∈ l) :
    (L.refreshAll key l s).shown i = some (key i) := by
  obtain ⟨l₁, l₂, rfl⟩ := List.append_of_mem h
  unfold refreshAll
  rw [List.foldl_append, List.foldl_cons]
  exact shown_refreshAll_of_shown shown_refresh_self

omit [DecidableEq ι] in
/-- The keys shown tell the whole screen. -/
theorem Shows.screen_eq (h : L.Shows base s) (h' : L.Shows base s') (hs : s.shown = s'.shown) :
    s.screen = s'.screen := by
  funext p
  by_cases hp : ∃ i, L.region i p
  · obtain ⟨i, hi⟩ := hp
    rw [h.layer i p hi, h'.layer i p hi, hs]
  · have hout : ∀ i, ¬ L.region i p := not_exists.1 hp
    rw [h.rest p hout, h'.rest p hout]

end Layers

end Lib
