import Esp32Battery.Lib.Prog

/-!
# Request bodies
-/

namespace Esp32Battery

abbrev EspError := Lib.DriverError

/-- What is known after a fallible operation: `bad` once it failed, `good` of what it returned. -/
def Outcome {ε α S : Type} (bad : S → Prop) (good : α → S → Prop) : Except ε α → S → Prop
  | .error _, s => bad s
  | .ok a, s => good a s

/-- What a read of at most `n` bytes may do to the rest of a body: deliver some of it, all of it
having been delivered deliver none, or, where reads may fail, fail. -/
inductive Delivers (mayFail : Prop) (n : ℕ) :
    List UInt8 → Except EspError (List UInt8) → List UInt8 → Prop
  | some (bytes rest : List UInt8) : bytes.length ≤ n → (bytes = [] → n = 0 ∨ rest = []) →
      Delivers mayFail n (bytes ++ rest) (.ok bytes) rest
  | fail (rest rest' : List UInt8) (e : EspError) : mayFail →
      Delivers mayFail n rest (.error e) rest'

namespace Delivers

variable {mayFail : Prop} {n : ℕ} {body bytes rest : List UInt8} {e : EspError}

theorem ok (h : Delivers mayFail n body (.ok bytes) rest) :
    bytes ++ rest = body ∧ bytes.length ≤ n ∧ (bytes = [] → n = 0 ∨ rest = []) := by
  cases h with
  | some _ _ hle hempty => exact ⟨rfl, hle, hempty⟩

theorem error (h : Delivers mayFail n body (.error e) rest) : mayFail := by
  cases h with
  | fail _ _ _ hfail => exact hfail

/-- A connection that delivers `k` bytes at a time. -/
theorem take (mayFail : Prop) (n : ℕ) {k : ℕ} (hk : 0 < k) (body : List UInt8) :
    Delivers mayFail n body (.ok (body.take (min n k))) (body.drop (min n k)) := by
  have hd : Delivers mayFail n (body.take (min n k) ++ body.drop (min n k))
      (.ok (body.take (min n k))) (body.drop (min n k)) := by
    refine .some _ _ (by rw [List.length_take]; omega) fun h => ?_
    rcases List.take_eq_nil_iff.1 h with h | h
    · exact .inl (by omega)
    · exact .inr (by rw [h, List.drop_nil])
  rwa [List.take_append_drop] at hd

end Delivers

end Esp32Battery
