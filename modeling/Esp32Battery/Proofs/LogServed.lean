import Esp32Battery.LogCapture

/-!
# What `/api/log` serves

The lines the ring takes are those logged while nobody held it, and a response is the end of those
taken before it, whatever is logged while it is written.
-/

namespace Esp32Battery

open Lib

namespace LogCapture

variable {s s' : LogCapture} {e : LogEvent} {lines : List (List UInt8)} {cap : ℕ}
  {newest : List UInt8}

/-- The line an event has the ring take. -/
def takes (s : LogCapture) : LogEvent → List (List UInt8)
  | .log line => if s.guard.isNone then (formatted line).toList else []
  | _ => []

/-- The lines a run has the ring take. -/
def taken (s : LogCapture) : List LogEvent → List (List UInt8)
  | [] => []
  | e :: es => s.takes e ++ (s.step e).toOption.elim [] fun s' => s'.taken es

/-- What an event prints. -/
def printed : LogEvent → List UInt8
  | .log line => ((formatted line).map echoed).getD []
  | _ => []

/-- The line that is taken and not yet in the ring. -/
def pending (s : LogCapture) : List (List UInt8) :=
  match s.guard with
  | some (.hook line) => [line]
  | _ => []

/-- Of these lines all but the pending one are in the ring, as many bytes of their end as fit. -/
structure Holds (cap : ℕ) (lines : List (List UInt8)) (s : LogCapture) : Prop where
  head : s.ring.head < s.ring.data.length
  length : s.ring.data.length = cap
  contents : ∃ written, lines = written ++ s.pending ∧
    s.ring.contents = written.flatten.rtake cap

theorem Holds.of_eq (h : s.Holds cap lines) (hring : s'.ring = s.ring)
    (hpending : s'.pending = s.pending) : s'.Holds cap lines where
  head := by rw [hring]; exact h.head
  length := by rw [hring]; exact h.length
  contents := by rw [hring, hpending]; exact h.contents

theorem Holds.step (h : s.Holds cap lines) (e : LogEvent) : ∃ s', s.step e = .ok s' ∧
    s'.Holds cap (lines ++ s.takes e) ∧ s'.uart = s.uart ++ printed e := by
  obtain ⟨written, hlines, hcontents⟩ := h.contents
  cases e with
  | log line =>
    simp only [LogCapture.step, takes, printed]
    rcases formatted line with _ | slice
    · refine ⟨s, rfl, ?_, (List.append_nil _).symm⟩
      rw [Option.toList_none, ite_self, List.append_nil]
      exact h
    · rcases hg : s.guard with _ | g
      · refine ⟨_, rfl, ⟨h.head, h.length, lines, rfl, ?_⟩, rfl⟩
        rw [hcontents, hlines, pending, hg, List.append_nil]
      · refine ⟨_, rfl, ?_, rfl⟩
        rw [Option.isNone_some, if_neg Bool.false_ne_true, List.append_nil]
        exact h.of_eq rfl (by simp [pending, hg])
  | append =>
    simp only [LogCapture.step, takes, printed, List.append_nil]
    rcases hg : s.guard with _ | line | chunks
    · exact ⟨s, rfl, h, rfl⟩
    · obtain ⟨ring, hwrite, htakes⟩ := Ring.write_takes line h.head
      refine ⟨{ s with ring, guard := none }, by simp only [hwrite]; rfl,
        ⟨htakes.head, htakes.length.trans h.length, lines, (List.append_nil _).symm, ?_⟩, rfl⟩
      rw [htakes.contents, hcontents, h.length, rtake_rtake_append, hlines, pending, hg,
        List.flatten_append, List.flatten_singleton]
    · exact ⟨s, rfl, h, rfl⟩
  | request =>
    simp only [LogCapture.step, takes, printed, List.append_nil]
    rcases hg : s.guard with _ | g
    · obtain ⟨older, newer, hslices, -⟩ := Ring.slices_contents h.head.le
      refine ⟨{ s with guard := some (.handler [older, newer]), response := [] },
        by simp only [hslices]; rfl, h.of_eq rfl ?_, rfl⟩
      simp only [pending, hg]
    · exact ⟨s, rfl, h, rfl⟩
  | writeAll failed =>
    simp only [LogCapture.step, takes, printed, List.append_nil]
    rcases hg : s.guard with _ | line | _ | ⟨chunk, chunks⟩
    · exact ⟨s, rfl, h, rfl⟩
    · exact ⟨s, rfl, h, rfl⟩
    · exact ⟨s, rfl, h, rfl⟩
    · rcases failed with _ | n
      · refine ⟨_, rfl, h.of_eq rfl ?_, rfl⟩
        simp only [pending, hg]
        split_ifs <;> rfl
      · refine ⟨_, rfl, h.of_eq rfl ?_, rfl⟩
        simp only [pending, hg]

theorem Holds.run (h : s.Holds cap lines) (es : List LogEvent) : ∃ s', s.run es = .ok s' ∧
    s'.Holds cap (lines ++ s.taken es) ∧ s'.uart = s.uart ++ es.flatMap printed := by
  induction es generalizing s lines with
  | nil => exact ⟨s, rfl, by rw [taken, List.append_nil]; exact h, (List.append_nil _).symm⟩
  | cons e es ih =>
    obtain ⟨s₁, hstep, h₁, huart₁⟩ := h.step e
    obtain ⟨s', hrun, h', huart⟩ := ih h₁
    refine ⟨s', by rw [LogCapture.run, hstep, ok_bind, hrun], ?_, ?_⟩
    · rw [taken, hstep, ← List.append_assoc]
      exact h'
    · rw [huart, huart₁, List.flatMap_cons, List.append_assoc]

theorem holds_init {buf : List UInt8} (hbuf : buf ≠ []) : ∃ s, init buf = .ok s ∧
    s.Holds buf.length [] ∧ s.uart = [] := by
  have hfresh : Ring.fromBuf buf = .ok ⟨List.replicate buf.length 0, 0, false⟩ := by
    unfold Ring.fromBuf
    rw [show (!buf.isEmpty) = true by simpa using hbuf]
    rfl
  refine ⟨_, by rw [init, hfresh, ok_bind]; rfl, ⟨?_, List.length_replicate, [], rfl, ?_⟩, rfl⟩
  · rw [List.length_replicate]
    exact List.length_pos_of_ne_nil hbuf
  · simp [Ring.contents, List.rtake]

/-- A response that is to be `newest`: so many chunks of it are left to write, or a write failed. -/
inductive Answers (newest : List UInt8) (s : LogCapture) : Option ℕ → Prop
  | writing (chunks : List (List UInt8)) : s.guard = some (.handler chunks) →
      s.response ++ chunks.flatten = newest → Answers newest s (some chunks.length)
  | written : (∀ chunks, s.guard ≠ some (.handler chunks)) → s.response = newest →
      Answers newest s (some 0)
  | failed : (∀ chunks, s.guard ≠ some (.handler chunks)) → s.response <+: newest →
      Answers newest s none

/-- The chunks left after an event. -/
def left (k : Option ℕ) : LogEvent → Option ℕ
  | .writeAll none => k.map (· - 1)
  | .writeAll (some _) => if k = some 0 then k else none
  | _ => k

theorem Answers.of_eq {k : Option ℕ} (h : Answers newest s k) (hg : s'.guard = s.guard)
    (hr : s'.response = s.response) : Answers newest s' k := by
  cases h with
  | writing chunks hguard hresponse =>
    exact .writing chunks (hg.trans hguard) (by rw [hr]; exact hresponse)
  | written hguard hresponse => exact .written (by rw [hg]; exact hguard) (hr.trans hresponse)
  | failed hguard hresponse =>
    exact .failed (by rw [hg]; exact hguard) (by rw [hr]; exact hresponse)

/-- With no handler at work the ring may change hands. -/
theorem Answers.idle {k : Option ℕ} (h : Answers newest s k)
    (hs : ∀ chunks, s.guard ≠ some (.handler chunks))
    (hs' : ∀ chunks, s'.guard ≠ some (.handler chunks)) (hr : s'.response = s.response) :
    Answers newest s' k := by
  cases h with
  | writing chunks hguard _ => exact absurd hguard (hs chunks)
  | written _ hresponse => exact .written hs' (hr.trans hresponse)
  | failed _ hresponse => exact .failed hs' (by rw [hr]; exact hresponse)

theorem Answers.step {k : Option ℕ} (h : Answers newest s k) (he : e ≠ .request)
    (hstep : s.step e = .ok s') : Answers newest s' (left k e) := by
  cases e with
  | log line =>
    simp only [LogCapture.step] at hstep
    rcases hf : formatted line with _ | slice <;> rw [hf] at hstep
    · cases hstep
      exact h
    · rcases hg : s.guard with _ | g <;> simp only [hg] at hstep <;> cases hstep
      · exact h.idle (by simp [hg]) (by simp) rfl
      · exact h.of_eq hg.symm rfl
  | append =>
    simp only [LogCapture.step] at hstep
    rcases hg : s.guard with _ | line | chunks <;> simp only [hg] at hstep
    · cases hstep
      exact h
    · obtain ⟨ring, -, hret⟩ := bind_eq_ok.1 hstep
      cases hret
      exact h.idle (by simp [hg]) (by simp) rfl
    · cases hstep
      exact h
  | request => exact absurd rfl he
  | writeAll failed =>
    simp only [LogCapture.step] at hstep
    have hidle : (∀ chunks, s.guard ≠ some (.handler chunks)) → s = s' := by
      intro hno
      rcases hg : s.guard with _ | line | chunks
      · simpa [hg] using hstep
      · simpa [hg] using hstep
      · exact absurd hg (hno chunks)
    cases h with
    | writing chunks hguard hresponse =>
      rcases chunks with _ | ⟨chunk, chunks⟩ <;> simp only [hguard] at hstep
      · cases hstep
        rcases failed with _ | n <;> exact .writing [] hguard hresponse
      · rw [List.flatten_cons, ← List.append_assoc] at hresponse
        rcases failed with _ | n <;> cases hstep
        · rcases chunks with _ | ⟨next, chunks⟩
          · exact .written (by simp) (by rw [← hresponse, List.flatten_nil, List.append_nil])
          · exact .writing (next :: chunks) rfl hresponse
        · refine .failed (by simp) (.trans ?_ ⟨_, hresponse⟩)
          exact (List.prefix_append_right_inj _).2 (List.take_prefix n chunk)
    | written hguard hresponse =>
      obtain rfl := hidle hguard
      rcases failed with _ | n <;> exact .written hguard hresponse
    | failed hguard hresponse =>
      obtain rfl := hidle hguard
      rcases failed with _ | n <;> exact .failed hguard hresponse

theorem Answers.run {k : Option ℕ} {es : List LogEvent} (h : Answers newest s k)
    (hes : .request ∉ es) (hrun : s.run es = .ok s') : Answers newest s' (es.foldl left k) := by
  induction es generalizing s k with
  | nil =>
    cases hrun
    exact h
  | cons e es ih =>
    obtain ⟨s₁, hstep, hrun⟩ := bind_eq_ok.1 hrun
    rw [List.mem_cons, not_or] at hes
    exact ih (h.step (Ne.symm hes.1) hstep) hes.2 hrun

theorem Answers.begins {k : Option ℕ} (h : Answers newest s k) : s.response <+: newest := by
  cases h with
  | writing chunks _ hresponse => exact ⟨_, hresponse⟩
  | written _ hresponse => exact hresponse ▸ List.prefix_rfl
  | failed _ hresponse => exact hresponse

theorem Answers.eq (h : Answers newest s (some 0)) : s.response = newest := by
  generalize hk : some 0 = k at h
  cases h with
  | writing chunks _ hresponse =>
    obtain rfl : chunks = [] := List.eq_nil_of_length_eq_zero (Option.some.inj hk).symm
    rwa [List.flatten_nil, List.append_nil] at hresponse
  | written _ hresponse => exact hresponse
  | failed => cases hk

theorem foldl_left {es : List LogEvent} (hes : ∀ n, .writeAll (some n) ∉ es) (k : ℕ) :
    es.foldl left (some k) = some (k - es.count (.writeAll none)) := by
  induction es generalizing k with
  | nil => rfl
  | cons e es ih =>
    have hes' := fun n h => hes n (List.mem_cons_of_mem e h)
    rw [List.foldl_cons]
    cases e with
    | writeAll failed =>
      rcases failed with _ | n
      · rw [left, Option.map_some, ih hes', List.count_cons_self, Nat.sub_sub, Nat.add_comm 1]
      · exact absurd List.mem_cons_self (hes n)
    | log line | append | request =>
      rw [List.count_cons_of_ne (by simp)]
      exact ih hes' k

/-- However log lines and a response interleave, nothing panics, everything is printed, and a
response begun when nobody holds the ring is the end of the lines taken until then: as many bytes
as the ring has, or a part from their start where a write to the client fails. -/
theorem log_served {buf : List UInt8} (hbuf : buf ≠ []) (pre : List LogEvent)
    {post : List LogEvent} (hpost : .request ∉ post) : ∃ s₀ s₁ s, init buf = .ok s₀ ∧
      s₀.run pre = .ok s₁ ∧ s₁.run (.request :: post) = .ok s ∧
      s.uart = (pre ++ post).flatMap printed ∧ (s₁.guard = none →
        s.response <+: (s₀.taken pre).flatten.rtake buf.length ∧
        ((∀ n, .writeAll (some n) ∉ post) → 2 ≤ post.count (.writeAll none) →
          s.response = (s₀.taken pre).flatten.rtake buf.length)) := by
  obtain ⟨s₀, hinit, h₀, huart₀⟩ := holds_init hbuf
  obtain ⟨s₁, hpre, h₁, huart₁⟩ := h₀.run pre
  obtain ⟨s, hrun, -, huart⟩ := h₁.run (.request :: post)
  refine ⟨s₀, s₁, s, hinit, hpre, hrun, ?_, fun hfree => ?_⟩
  · rw [huart, huart₁, huart₀, List.nil_append, List.flatMap_cons, List.flatMap_append]
    rfl
  · obtain ⟨written, hlines, hcontents⟩ := h₁.contents
    rw [pending, hfree, List.append_nil, List.nil_append] at hlines
    obtain ⟨older, newer, hslices, hread⟩ := Ring.slices_contents h₁.head.le
    rw [hcontents, ← hlines] at hread
    obtain ⟨s₂, hstep, hpostrun⟩ := bind_eq_ok.1 hrun
    simp only [LogCapture.step, hfree, hslices, ok_bind] at hstep
    cases hstep
    have hfirst : Answers (older ++ newer)
        { s₁ with guard := some (.handler [older, newer]), response := [] } (some 2) :=
      .writing [older, newer] rfl (by simp)
    have hans := hfirst.run hpost hpostrun
    rw [hread] at hans
    refine ⟨hans.begins, fun hok htwo => ?_⟩
    rw [foldl_left hok, Nat.sub_eq_zero_of_le htwo] at hans
    exact hans.eq

/-- A line logged while the response is written is printed and not taken. -/
theorem log_served_meanwhile : ∃ s₀ s₁ s, init [0, 0, 0, 0] = .ok s₀ ∧
    s₀.run [.log (some [1, 2, 3]), .append, .log (some [4, 5]), .append] = .ok s₁ ∧
    s₁.run [.request, .writeAll none, .log (some [6]), .append, .writeAll none] = .ok s ∧
    s.uart = [1, 2, 3, 4, 5, 6] ∧ s.response = [2, 3, 4, 5] := by
  have hbuf : ([0, 0, 0, 0] : List UInt8) ≠ [] := by simp
  have hpost : LogEvent.request ∉
      [.writeAll none, .log (some [6]), .append, .writeAll none] := by simp
  obtain ⟨s₀, s₁, s, hinit, hpre, hrun, huart, hserved⟩ := log_served hbuf
    [.log (some [1, 2, 3]), .append, .log (some [4, 5]), .append] hpost
  cases hinit
  have hfree : s₁.guard = none := by
    cases hpre
    rfl
  exact ⟨_, s₁, s, rfl, hpre, hrun, huart, (hserved hfree).2 (by simp) (by decide)⟩

end LogCapture

end Esp32Battery
