import Mathlib

/-!
# Locks taken in order

Threads run code that takes locks in nested sections, tries locks without waiting, and waits for
other threads to come to rest. Where a section takes a lock above all it is nested in, and a
thread that waits for another holds nothing and is above it, no schedule gets stuck: whatever is
under way comes to its end, in a bounded number of moves.
-/

namespace Lib.Locks

variable {L T R V : Type*}

/-- What a thread has ahead, as far as another can wait for it. A section holds its lock for its
body; one whose lock is only tried is left out when the lock is taken. -/
inductive Code (L T : Type*) where
  | done
  | lock (l : L) (body next : Code L T)
  | tryLock (l : L) (body next : Code L T)
  | await (t : T) (next : Code L T)

namespace Code

def size : Code L T → ℕ
  | done => 0
  | lock _ body next | tryLock _ body next => body.size + next.size + 2
  | await _ next => next.size + 1

/-- The code of `t` takes its locks in order, `held` being those it is nested in. -/
def Ordered [LT R] [LT V] (rank : L → R) (level : T → V) (t : T) : List L → Code L T → Prop
  | _, done => True
  | held, lock l body next =>
    (∀ m ∈ held, rank m < rank l) ∧ body.Ordered rank level t (l :: held) ∧
      next.Ordered rank level t held
  | held, tryLock l body next =>
    body.Ordered rank level t (l :: held) ∧ next.Ordered rank level t held
  | held, await u next => held = [] ∧ level u < level t ∧ next.Ordered rank level t held

end Code

/-- A thread: the code it is in, and the sections around it, each with what follows it. -/
structure Thread (L T : Type*) where
  code : Code L T
  frames : List (L × Code L T)

namespace Thread

variable {x y : Thread L T}

def start (c : Code L T) : Thread L T := ⟨c, []⟩

def held (x : Thread L T) : List L := x.frames.map Prod.fst

def Idle (x : Thread L T) : Prop := x.code = .done ∧ x.frames = []

def size (x : Thread L T) : ℕ := x.code.size + (x.frames.map fun f => f.2.size + 1).sum

/-- One move, with `Free` the locks nobody holds and `Rest` the threads that are at rest. -/
inductive Move (Free : L → Prop) (Rest : T → Prop) : Thread L T → Thread L T → Prop
  | lock {l : L} {body next : Code L T} {fs : List (L × Code L T)} : Free l →
      Move Free Rest ⟨.lock l body next, fs⟩ ⟨body, (l, next) :: fs⟩
  | tryLock {l : L} {body next : Code L T} {fs : List (L × Code L T)} : Free l →
      Move Free Rest ⟨.tryLock l body next, fs⟩ ⟨body, (l, next) :: fs⟩
  | contended {l : L} {body next : Code L T} {fs : List (L × Code L T)} : ¬ Free l →
      Move Free Rest ⟨.tryLock l body next, fs⟩ ⟨next, fs⟩
  | unlock {l : L} {next : Code L T} {fs : List (L × Code L T)} :
      Move Free Rest ⟨.done, (l, next) :: fs⟩ ⟨next, fs⟩
  | await {t : T} {next : Code L T} {fs : List (L × Code L T)} : Rest t →
      Move Free Rest ⟨.await t next, fs⟩ ⟨next, fs⟩

theorem Move.size_lt {Free : L → Prop} {Rest : T → Prop} (h : Move Free Rest x y) :
    y.size < x.size := by
  cases h <;> simp only [size, Code.size, List.map_cons, List.sum_cons] <;> omega

/-- A thread that cannot move is at rest, or stands before a lock that is taken or a thread that
is not at rest. -/
theorem stuck_cases {Free : L → Prop} {Rest : T → Prop} (h : ∀ y, ¬ Move Free Rest x y) :
    x.Idle ∨ (∃ l body next, x.code = .lock l body next ∧ ¬ Free l) ∨
      ∃ t next, x.code = .await t next ∧ ¬ Rest t := by
  obtain ⟨code, frames⟩ := x
  cases code with
  | done =>
    cases frames with
    | nil => exact .inl ⟨rfl, rfl⟩
    | cons f fs => exact absurd .unlock (h ⟨f.2, fs⟩)
  | lock l body next => exact .inr (.inl ⟨l, body, next, rfl, fun hl => h _ (.lock hl)⟩)
  | tryLock l body next =>
    by_cases hl : Free l
    · exact absurd (.tryLock hl) (h _)
    · exact absurd (.contended hl) (h _)
  | await t next => exact .inr (.inr ⟨t, next, rfl, fun ht => h _ (.await ht)⟩)

section Order

variable [LT R] [LT V] {rank : L → R} {level : T → V} {t : T}

/-- What follows each section is in order there. -/
def FramesOrdered (rank : L → R) (level : T → V) (t : T) : List (L × Code L T) → Prop
  | [] => True
  | f :: fs => f.2.Ordered rank level t (fs.map Prod.fst) ∧ FramesOrdered rank level t fs

def Ordered (rank : L → R) (level : T → V) (t : T) (x : Thread L T) : Prop :=
  x.code.Ordered rank level t x.held ∧ FramesOrdered rank level t x.frames

theorem Ordered.start {c : Code L T} (h : c.Ordered rank level t []) :
    (start c).Ordered rank level t := ⟨h, trivial⟩

theorem Move.ordered {Free : L → Prop} {Rest : T → Prop} (h : Move Free Rest x y)
    (hx : x.Ordered rank level t) : y.Ordered rank level t := by
  obtain ⟨hc, hf⟩ := hx
  cases h with
  | lock hl =>
    obtain ⟨-, hbody, hnext⟩ := hc
    exact ⟨hbody, hnext, hf⟩
  | tryLock hl =>
    obtain ⟨hbody, hnext⟩ := hc
    exact ⟨hbody, hnext, hf⟩
  | contended hl => exact ⟨hc.2, hf⟩
  | unlock => exact hf
  | await ht => exact ⟨hc.2.2, hf⟩

end Order

/-- A move takes a lock nobody holds, or none. -/
theorem Move.held {Free : L → Prop} {Rest : T → Prop} {l : L} (h : Move Free Rest x y)
    (hl : l ∈ y.held) : l ∈ x.held ∨ Free l := by
  cases h with
  | lock hfree | tryLock hfree =>
    rcases List.mem_cons.1 hl with rfl | hl
    · exact .inr hfree
    · exact .inl hl
  | contended | await => exact .inl hl
  | unlock => exact .inl (List.mem_cons_of_mem _ hl)

end Thread

variable {s s' : T → Thread L T}

def Free (s : T → Thread L T) (l : L) : Prop := ∀ t, l ∉ (s t).held

section Run

variable [DecidableEq T]

/-- Some thread that is under way moves. -/
inductive Move (s : T → Thread L T) : (T → Thread L T) → Prop
  | mk (t : T) (x : Thread L T) : (s t).Move (Free s) (fun u => (s u).Idle) x →
      Move s (Function.update s t x)

/-- Some thread moves, or one at rest begins on code of its own. -/
inductive Step (runs : T → Code L T → Prop) (s : T → Thread L T) : (T → Thread L T) → Prop
  | move {s' : T → Thread L T} : Move s s' → Step runs s s'
  | begins (t : T) (c : Code L T) : (s t).Idle → runs t c →
      Step runs s (Function.update s t (.start c))

/-- States of the threads in any interleaving, from all at rest. -/
def Reachable (runs : T → Code L T → Prop) : (T → Thread L T) → Prop :=
  Relation.ReflTransGen (Step runs) fun _ => .start .done

namespace Reachable

variable {runs : T → Code L T → Prop} {t : T}

theorem rest : Reachable runs fun _ => .start .done := .refl

theorem begins {c : Code L T} (h : Reachable runs s) (hs : (s t).Idle) (hc : runs t c) :
    Reachable runs (Function.update s t (.start c)) := .tail h (.begins t c hs hc)

theorem move {x y : Thread L T} (h : Reachable runs s) (hs : s t = x)
    (hx : x.Move (Free s) (fun u => (s u).Idle) y) : Reachable runs (Function.update s t y) :=
  .tail h (.move (.mk t y (hs ▸ hx)))

end Reachable

/-- `n` moves of what is under way, nothing new begun. -/
inductive Moves (s : T → Thread L T) : ℕ → (T → Thread L T) → Prop
  | refl : Moves s 0 s
  | tail {n : ℕ} {s' s'' : T → Thread L T} : Moves s n s' → Move s' s'' → Moves s (n + 1) s''

variable {n : ℕ}

theorem Move.size_lt [Fintype T] (h : Move s s') : ∑ t, (s' t).size < ∑ t, (s t).size := by
  obtain ⟨t, x, hx⟩ := h
  refine Finset.sum_lt_sum (fun u _ => ?_) ⟨t, Finset.mem_univ t, ?_⟩
  · by_cases hu : u = t
    · subst hu
      rw [Function.update_self]
      exact hx.size_lt.le
    · rw [Function.update_of_ne hu]
  · rw [Function.update_self]
    exact hx.size_lt

/-- However the moves are chosen, there are no more of them than there is code ahead. -/
theorem Moves.le_size [Fintype T] (h : Moves s n s') :
    n + ∑ t, (s' t).size ≤ ∑ t, (s t).size := by
  induction h with
  | refl => simp
  | tail _ hmove ih =>
    have := hmove.size_lt
    omega

end Run

/-- Every thread's code is in order, and no lock is held by two. -/
structure Orderly [LT R] [LT V] (rank : L → R) (level : T → V) (s : T → Thread L T) : Prop where
  ordered : ∀ t, (s t).Ordered rank level t
  exclusive : ∀ t u l, l ∈ (s t).held → l ∈ (s u).held → t = u

section Progress

variable [DecidableEq T] {rank : L → R} {level : T → V} {runs : T → Code L T → Prop} {n : ℕ}

section Preserved

variable [LT R] [LT V]

theorem Orderly.move (h : Orderly rank level s) (hs : Move s s') : Orderly rank level s' := by
  obtain ⟨t, x, hx⟩ := hs
  have hheld : ∀ u, u ≠ t → ∀ l ∈ x.held, l ∉ (s u).held := by
    intro u hu l hl hmem
    rcases hx.held hl with hold | hfree
    · exact hu (h.exclusive u t l hmem hold)
    · exact hfree u hmem
  refine ⟨fun u => ?_, fun u v l hlu hlv => ?_⟩
  · by_cases hu : u = t
    · subst hu
      rw [Function.update_self]
      exact hx.ordered (h.ordered u)
    · rw [Function.update_of_ne hu]
      exact h.ordered u
  · by_cases hu : u = t <;> by_cases hv : v = t
    · rw [hu, hv]
    · rw [hu, Function.update_self] at hlu
      rw [Function.update_of_ne hv] at hlv
      exact absurd hlv (hheld v hv l hlu)
    · rw [hv, Function.update_self] at hlv
      rw [Function.update_of_ne hu] at hlu
      exact absurd hlu (hheld u hu l hlv)
    · rw [Function.update_of_ne hu] at hlu
      rw [Function.update_of_ne hv] at hlv
      exact h.exclusive u v l hlu hlv

theorem Orderly.begins {t : T} {c : Code L T} (h : Orderly rank level s)
    (hc : c.Ordered rank level t []) : Orderly rank level (Function.update s t (.start c)) := by
  have hheld : ∀ u l, l ∈ (Function.update s t (.start c) u).held → l ∈ (s u).held := by
    intro u l hl
    by_cases hu : u = t
    · rw [hu, Function.update_self] at hl
      cases hl
    · rwa [Function.update_of_ne hu] at hl
  refine ⟨fun u => ?_, fun u v l hu hv => h.exclusive u v l (hheld u l hu) (hheld v l hv)⟩
  by_cases hu : u = t
  · subst hu
    rw [Function.update_self]
    exact .start hc
  · rw [Function.update_of_ne hu]
    exact h.ordered u

theorem Reachable.orderly (hruns : ∀ t c, runs t c → c.Ordered rank level t [])
    (h : Reachable runs s) : Orderly rank level s := by
  induction h with
  | refl => exact ⟨fun _ => .start trivial, fun _ _ _ hl => by cases hl⟩
  | tail _ hstep ih =>
    cases hstep with
    | move hm => exact ih.move hm
    | begins t c _ hc => exact ih.begins (hruns t c hc)

theorem Moves.orderly (h : Moves s n s') (hs : Orderly rank level s) : Orderly rank level s' := by
  induction h with
  | refl => exact hs
  | tail _ hm ih => exact ih.move hm

end Preserved

variable [Preorder R] [WellFoundedGT R] [Preorder V]

/-- Where no thread can move, none stands before a lock: its holder would stand before a higher
one. -/
theorem Orderly.not_locked (h : Orderly rank level s) (hstuck : ∀ s', ¬ Move s s') (l : L) :
    ∀ t body next, (s t).code ≠ .lock l body next := by
  induction hr : rank l using WellFoundedGT.induction generalizing l with
  | _ r ih =>
    subst hr
    intro t body next ht
    have hcannot : ∀ u y, ¬ (s u).Move (Free s) (fun v => (s v).Idle) y :=
      fun u y hy => hstuck _ (.mk u y hy)
    have htaken : ¬ Free s l := by
      rcases Thread.stuck_cases (hcannot t) with ⟨hdone, -⟩ | ⟨l', _, _, hl', hfree⟩ |
          ⟨u, _, hu, -⟩
      · rw [ht] at hdone
        cases hdone
      · rw [ht] at hl'
        cases hl'
        exact hfree
      · rw [ht] at hu
        cases hu
    obtain ⟨u, hu⟩ := not_forall.1 htaken
    rw [not_not] at hu
    have hord := (h.ordered u).1
    rcases Thread.stuck_cases (hcannot u) with ⟨-, hframes⟩ | ⟨l', b, k, hl', -⟩ | ⟨v, k, hv, -⟩
    · simp [Thread.held, hframes] at hu
    · rw [hl'] at hord
      exact ih (rank l') (hord.1 l hu) l' rfl u b k hl'
    · rw [hv] at hord
      rw [hord.1] at hu
      cases hu

variable [WellFoundedLT V]

/-- Where no thread can move, every thread is at rest. -/
theorem Orderly.idle (h : Orderly rank level s) (hstuck : ∀ s', ¬ Move s s') (t : T) :
    (s t).Idle := by
  induction hv : level t using WellFoundedLT.induction generalizing t with
  | _ v ih =>
    subst hv
    rcases Thread.stuck_cases fun y hy => hstuck _ (.mk t y hy) with hidle | ⟨l, b, k, hl, -⟩ |
        ⟨u, k, hu, hbusy⟩
    · exact hidle
    · exact absurd hl (h.not_locked hstuck l t b k)
    · have hord := (h.ordered t).1
      rw [hu] at hord
      exact absurd (ih (level u) hord.2.1 u rfl) hbusy

/-- Whatever is under way comes to its end: the moves are bounded, and where they can go no
further every thread is at rest. -/
theorem Reachable.progress [Fintype T] (hruns : ∀ t c, runs t c → c.Ordered rank level t [])
    (h : Reachable runs s) : (∀ t u l, l ∈ (s t).held → l ∈ (s u).held → t = u) ∧
      ∃ bound, ∀ n s', Moves s n s' →
        n ≤ bound ∧ ((∀ s'', ¬ Move s' s'') → ∀ t, (s' t).Idle) := by
  have hs : Orderly rank level s := h.orderly hruns
  refine ⟨hs.exclusive, ∑ t, (s t).size, fun n s' hm => ⟨?_, (hm.orderly hs).idle⟩⟩
  have := hm.le_size
  omega

end Progress

end Lib.Locks
