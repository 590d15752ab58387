import Esp32Battery.Charging.Window
import Esp32Battery.Lib.Reflected

/-!
# What a leaky window measures

An input is a step up or down by its time, and the window is the walk of these steps held at
zero. So it has reached its timeout when over some run of last inputs the condition was true for
that much longer than it was false.
-/

namespace Esp32Battery

open Lib

namespace Debounce

/-- The time of an input, counted against where the condition is false. -/
def signed (i : Bool × Duration) : ℤ := if i.1 then i.2.nanos else -i.2.nanos

/-- Time true less time false. -/
def netNanos (is : List (Bool × Duration)) : ℤ := (is.map signed).sum

def totalNanos (is : List (Bool × Duration)) : ℕ := (is.map fun i => i.2.nanos).sum

/-- What an input leaves in the window. -/
def leak (d : Debounce) (i : Bool × Duration) : Debounce :=
  ⟨if i.1 then d.elapsed.saturatingAdd i.2 else d.elapsed.saturatingSub i.2⟩

/-- No addition of the run saturates. -/
def Exact (d : Debounce) : List (Bool × Duration) → Prop
  | [] => True
  | i :: is => (i.1 = true → d.elapsed.nanos + i.2.nanos ≤ maxNanos) ∧ (d.leak i).Exact is

/-- The greatest net time of a run of last inputs. -/
def peak (is : List (Bool × Duration)) : ℤ := reflected (is.map signed)

variable {d : Debounce} {timeout : Duration} {i : Bool × Duration}
  {is l : List (Bool × Duration)}

theorem peak_concat (l : List (Bool × Duration)) (i : Bool × Duration) :
    peak (l ++ [i]) = max 0 (peak l + signed i) := by
  unfold peak
  rw [List.map_append, List.map_singleton, reflected_concat]

/-- A run of last inputs is a run of last steps. -/
theorem exists_suffix_iff {P : ℤ → Prop} :
    (∃ t, t <:+ is ∧ P (netNanos t)) ↔ ∃ t, t <:+ is.map signed ∧ P t.sum := by
  constructor
  · intro ⟨t, ht, h⟩
    exact ⟨t.map signed, ht.map signed, h⟩
  · intro ⟨t, ht, h⟩
    obtain ⟨u, hu, rfl⟩ := List.suffix_map_iff.1 ht
    exact ⟨u, hu, h⟩

theorem isGreatest_peak (is : List (Bool × Duration)) :
    IsGreatest {x | ∃ t, t <:+ is ∧ netNanos t = x} (peak is) := by
  have hset : {x | ∃ t, t <:+ is ∧ netNanos t = x}
      = {x | ∃ t, t <:+ is.map signed ∧ t.sum = x} :=
    Set.ext fun x => exists_suffix_iff (P := (· = x))
  rw [hset]
  exact isGreatest_reflected (is.map signed)

theorem le_peak_iff {c : ℤ} : c ≤ peak is ↔ ∃ t, t <:+ is ∧ c ≤ netNanos t := by
  unfold peak
  rw [le_reflected_iff, exists_suffix_iff (P := (c ≤ ·))]

theorem peak_nonneg (is : List (Bool × Duration)) : 0 ≤ peak is :=
  le_peak_iff.2 ⟨[], List.nil_suffix, le_rfl⟩

/-- One input moves the window as it moves the walk. -/
theorem leak_eq_peak (hd : (d.elapsed.nanos : ℤ) = peak l)
    (hexact : i.1 = true → d.elapsed.nanos + i.2.nanos ≤ maxNanos) :
    ((d.leak i).elapsed.nanos : ℤ) = peak (l ++ [i]) := by
  rw [peak_concat, ← hd]
  unfold leak signed
  by_cases hi : i.1 = true
  · have := hexact hi
    rw [if_pos hi, if_pos hi, Duration.nanos_saturatingAdd]
    omega
  · rw [if_neg hi, if_neg hi, Duration.nanos_saturatingSub]
    omega

theorem stepLeakyIn_true (d : Debounce) (i : Bool × Duration) (timeout : Duration) :
    d.stepLeakyIn true i.1 i.2 timeout
      = (require ((d.leak i).elapsed ≤ timeout.saturatingAdd i.2)
          "leaky debounce ran past its window — a fired gate went unhandled") >>=
        fun _ => d.stepLeakyIn false i.1 i.2 timeout := rfl

theorem netNanos_le (is : List (Bool × Duration)) : netNanos is ≤ totalNanos is := by
  induction is with
  | nil => exact le_rfl
  | cons i is ih =>
    unfold netNanos totalNanos signed at ih ⊢
    simp only [List.map_cons, List.sum_cons]
    split_ifs <;> omega

theorem peak_le (is : List (Bool × Duration)) : peak is ≤ totalNanos is := by
  obtain ⟨⟨t, ht, hsum⟩, -⟩ := isGreatest_peak is
  have hsub : totalNanos t ≤ totalNanos is := (ht.map _).sublist.sum_le_sum (by simp)
  have := netNanos_le t
  omega

/-- No input finds the window further past its timeout than its own time. -/
def Handled (timeout : Duration) (is : List (Bool × Duration)) : Prop :=
  ∀ l i t, l ++ [i] <+: is → t <:+ l ++ [i] → netNanos t ≤ timeout.nanos + i.2.nanos

/-- The same of the inputs that follow `l`. -/
def HandledFrom (timeout : Duration) (l : List (Bool × Duration)) :
    List (Bool × Duration) → Prop
  | [] => True
  | i :: is => peak (l ++ [i]) ≤ timeout.nanos + i.2.nanos ∧ HandledFrom timeout (l ++ [i]) is

theorem handledFrom_iff : HandledFrom timeout l is ↔
    ∀ m i, m ++ [i] <+: is → peak (l ++ (m ++ [i])) ≤ timeout.nanos + i.2.nanos := by
  induction is generalizing l with
  | nil => simp [HandledFrom]
  | cons i is ih =>
    unfold HandledFrom
    rw [ih]
    constructor
    · rintro ⟨hhere, hrest⟩ m j hm
      rcases m with _ | ⟨k, m⟩
      · obtain rfl : j = i := (List.cons_prefix_cons.1 hm).1
        exact hhere
      · obtain ⟨hk, hm'⟩ := List.cons_prefix_cons.1 hm
        subst hk
        simpa using hrest m j hm'
    · intro h
      refine ⟨h [] i (by simp), fun m j hm => ?_⟩
      simpa using h (i :: m) j (by simpa using hm)

theorem handled_iff : Handled timeout is ↔ HandledFrom timeout [] is := by
  rw [handledFrom_iff]
  constructor
  · intro h m i hm
    obtain ⟨⟨t, ht, hsum⟩, -⟩ := isGreatest_peak (m ++ [i])
    rw [List.nil_append, ← hsum]
    exact h m i t hm ht
  · intro h m i t hm ht
    exact ((isGreatest_peak (m ++ [i])).2 ⟨t, ht, rfl⟩).trans (h m i hm)

/-- Without debug assertions: the window and every answer. -/
theorem feedLeaky_release (timeout : Duration) (hd : (d.elapsed.nanos : ℤ) = peak l)
    (hexact : d.Exact is) :
    ∃ answers d', feedLeaky false timeout d is = .ok (answers, d') ∧
      (d'.elapsed.nanos : ℤ) = peak (l ++ is) ∧ answers.length = is.length ∧
      ∀ n, answers[n]? = some true ↔
        n < is.length ∧ (timeout.nanos : ℤ) ≤ peak (l ++ is.take (n + 1)) := by
  induction is generalizing d l with
  | nil => exact ⟨[], d, rfl, by simpa using hd, rfl, by simp⟩
  | cons i is ih =>
    have hhere := leak_eq_peak hd hexact.1
    obtain ⟨answers, d', hfeed, hend, hlen, hanswers⟩ := ih hhere hexact.2
    refine ⟨decide (timeout ≤ (d.leak i).elapsed) :: answers, d', ?_, by simpa using hend,
      by simp [hlen], fun n => ?_⟩
    · unfold feedLeaky
      rw [show d.stepLeakyIn false i.1 i.2 timeout
        = .ok (decide (timeout ≤ (d.leak i).elapsed), d.leak i) from rfl]
      simp only [ok_bind, hfeed]
      rfl
    · rcases n with _ | n
      · simp only [List.getElem?_cons_zero, Option.some.injEq, decide_eq_true_eq, Duration.le_def,
          List.length_cons, Nat.zero_lt_succ, true_and, List.take_succ_cons, List.take_zero]
        rw [← hhere, Nat.cast_le]
      · rw [List.getElem?_cons_succ, hanswers n, List.append_assoc, List.singleton_append,
          List.length_cons, List.take_succ_cons, Nat.succ_lt_succ_iff]

/-- With them: the same, unless some input finds the window too far past its timeout. -/
theorem feedLeaky_debug (timeout : Duration) (hd : (d.elapsed.nanos : ℤ) = peak l)
    (hexact : d.Exact is) :
    (HandledFrom timeout l is → feedLeaky true timeout d is = feedLeaky false timeout d is) ∧
    (¬ HandledFrom timeout l is → feedLeaky true timeout d is
      = .error ⟨"leaky debounce ran past its window — a fired gate went unhandled"⟩) := by
  induction is generalizing d l with
  | nil => exact ⟨fun _ => rfl, fun h => absurd trivial h⟩
  | cons i is ih =>
    have hhere := leak_eq_peak hd hexact.1
    have hpast : (d.leak i).elapsed ≤ timeout.saturatingAdd i.2 ↔
        peak (l ++ [i]) ≤ timeout.nanos + i.2.nanos := by
      have hmax := (d.leak i).elapsed.nanos_le
      rw [Duration.le_def, Duration.nanos_saturatingAdd, ← hhere]
      omega
    obtain ⟨hsame, hpanic⟩ := ih hhere hexact.2
    unfold feedLeaky HandledFrom
    rw [stepLeakyIn_true, show d.stepLeakyIn false i.1 i.2 timeout
      = .ok (decide (timeout ≤ (d.leak i).elapsed), d.leak i) from rfl]
    by_cases h : peak (l ++ [i]) ≤ timeout.nanos + i.2.nanos
    · simp only [hpast.2 h, decide_true, require_true, ok_bind, h, true_and]
      refine ⟨fun hrest => by rw [hsame hrest], fun hrest => ?_⟩
      rw [hpanic hrest, error_bind]
    · simp only [mt hpast.1 h, decide_false, require_false, error_bind, h, false_and]
      exact ⟨False.elim, fun _ => trivial⟩

/-- A caller that acts on the first answer lets no input find the window past its timeout. -/
theorem handled_of_unanswered {answers : List Bool} (h : ∀ n, n + 1 < is.length →
      answers[n]? = some false)
    (hanswers : ∀ n, answers[n]? = some true ↔
      n < is.length ∧ (timeout.nanos : ℤ) ≤ peak (is.take (n + 1))) : Handled timeout is := by
  intro l i t hl ht
  have hpeak := (isGreatest_peak (l ++ [i])).2 ⟨t, ht, rfl⟩
  rw [peak_concat] at hpeak
  have hstep : signed i ≤ i.2.nanos := by
    unfold signed
    split_ifs <;> omega
  have hbefore : peak l ≤ timeout.nanos := by
    rcases l.eq_nil_or_concat' with rfl | ⟨m, j, rfl⟩
    · exact Int.natCast_nonneg _
    · have hlen : m.length + 1 < is.length := by
        have := hl.length_le
        simp only [List.length_append, List.length_singleton] at this
        omega
      have hno := mt (hanswers m.length).2 (by rw [h m.length hlen]; simp)
      have htake : is.take (m.length + 1) = m ++ [j] := by
        have := List.prefix_iff_eq_take.1 ((List.prefix_append (m ++ [j]) [i]).trans hl)
        rw [this]
        simp
      rw [htake] at hno
      omega
  omega

/-- A leaky window holds the greatest net time of a run of last inputs, and answers an input when
some run that ends there has the timeout's worth. Debug assertions stop it at an input that finds
it too far past its timeout, and nowhere else. -/
theorem leaky_reference (timeout : Duration) (inputs : List (Bool × Duration))
    (hexact : reset.Exact inputs) :
    ∃ answers d, feedLeaky false timeout reset inputs = .ok (answers, d) ∧
      IsGreatest {x | ∃ t, t <:+ inputs ∧ netNanos t = x} (d.elapsed.nanos : ℤ) ∧
      answers.length = inputs.length ∧
      (∀ n, answers[n]? = some true ↔ n < inputs.length ∧
        ∃ t, t <:+ inputs.take (n + 1) ∧ (timeout.nanos : ℤ) ≤ netNanos t) ∧
      (Handled timeout inputs → feedLeaky true timeout reset inputs = .ok (answers, d)) ∧
      (¬ Handled timeout inputs → feedLeaky true timeout reset inputs
        = .error ⟨"leaky debounce ran past its window — a fired gate went unhandled"⟩) ∧
      ((∀ n, n + 1 < inputs.length → answers[n]? = some false) → Handled timeout inputs) := by
  have hstart : (reset.elapsed.nanos : ℤ) = peak [] := rfl
  obtain ⟨answers, d, hfeed, hend, hlen, hanswers⟩ :=
    feedLeaky_release timeout hstart hexact
  obtain ⟨hsame, hpanic⟩ := feedLeaky_debug timeout hstart hexact
  simp only [List.nil_append] at hend hanswers
  refine ⟨answers, d, hfeed, hend ▸ isGreatest_peak inputs, hlen, fun n => ?_, fun h => ?_,
    fun h => ?_, fun h => handled_of_unanswered h hanswers⟩
  · rw [hanswers n, le_peak_iff]
  · rw [hsame (handled_iff.1 h), hfeed]
  · exact hpanic (mt handled_iff.2 h)

/-- Below the tail but for one pulse: the pulse costs the exit gate its own time. -/
def pulsed : List (Bool × Duration) :=
  [(true, .fromSecs 59), (false, .fromSecs 10), (true, .fromSecs 11)]

theorem exact_pulsed : reset.Exact pulsed := by
  simp only [pulsed, Exact]
  decide

theorem leaky_reference_pulsed : ∃ answers d,
    feedLeaky false exitDebounce reset pulsed = .ok (answers, d) ∧
      IsGreatest {x | ∃ t, t <:+ pulsed ∧ netNanos t = x} (d.elapsed.nanos : ℤ) ∧
      answers = [false, false, true] := by
  obtain ⟨answers, d, hfeed, hpeak, -⟩ := leaky_reference exitDebounce pulsed exact_pulsed
  refine ⟨answers, d, hfeed, hpeak, ?_⟩
  have hrun : feedLeaky false exitDebounce reset pulsed
      = .ok ([false, false, true], ⟨.fromSecs 60⟩) := by
    decide
  cases hfeed.symm.trans hrun
  rfl

/-- Fed past its timeout, the window stops at the assertion instead of answering. -/
theorem leaky_unhandled :
    feedLeaky true (.fromSecs 1) reset [(true, .fromSecs 5), (true, .fromSecs 1)]
      = .error ⟨"leaky debounce ran past its window — a fired gate went unhandled"⟩ ∧
    reset.Exact [(true, .fromSecs 5), (true, .fromSecs 1)] ∧
    ∃ t, t <:+ [(true, Duration.fromSecs 5), (true, .fromSecs 1)] ∧
      ((Duration.fromSecs 1).nanos : ℤ) ≤ netNanos t := by
  refine ⟨by decide, ?_, _, List.suffix_rfl, by decide⟩
  simp only [Exact]
  decide

end Debounce

end Esp32Battery
