import Esp32Battery.Ina
import Esp32Battery.Lib.Conversation
import Esp32Battery.Lib.ExactField

/-!
# Which samples a published reading averages

Whatever the sensor answers, the samples read are taken in groups of ten, in order: each reading
published is the average of the next group, and fewer than a group are left over. A read that fails
is an event and nothing else.
-/

namespace Esp32Battery

open Lib Widening

namespace Ina

variable {F W : Type}

abbrev Talk (F : Type) := List (Answered (InaOp F) InaOp.Reply)

/-- The samples of a conversation: three registers read in a row. -/
def samples : Talk F → List (Ina228Reading F)
  | ⟨.busVoltage, some v⟩ :: ⟨.current, some i⟩ :: ⟨.power, some p⟩ :: c => ⟨v, i, p⟩ :: samples c
  | _ :: c => samples c
  | [] => []

/-- What a register that could not be read is recorded as. -/
def failure : Answered (InaOp F) InaOp.Reply → Option InaError
  | ⟨.busVoltage, none⟩ => some .busVoltageRead
  | ⟨.current, none⟩ => some .currentRead
  | ⟨.power, none⟩ => some .powerRead
  | _ => none

def published (c : Talk F) : List (Ina228Reading F) :=
  c.filterMap fun x => match x.op with
    | .updateBattery bat => some bat
    | _ => none

def recorded (c : Talk F) : List Event :=
  c.filterMap fun x => match x.op with
    | .record e => some e
    | _ => none

def slept (c : Talk F) : List Duration :=
  c.filterMap fun x => match x.op with
    | .sleep d => some d
    | _ => none

/-- What one attempt at a sample says, and how it ends. -/
inductive Attempted : Talk F → Except InaError (Ina228Reading F) → Prop
  | sampled (v i p : F) :
      Attempted [⟨.busVoltage, some v⟩, ⟨.current, some i⟩, ⟨.power, some p⟩] (.ok ⟨v, i, p⟩)
  | noVoltage : Attempted [⟨.busVoltage, none⟩] (.error .busVoltageRead)
  | noCurrent (v : F) :
      Attempted [⟨.busVoltage, some v⟩, ⟨.current, none⟩] (.error .currentRead)
  | noPower (v i : F) :
      Attempted [⟨.busVoltage, some v⟩, ⟨.current, some i⟩, ⟨.power, none⟩] (.error .powerRead)

theorem says_read {c : Talk F} {x : Except InaError (Ina228Reading F)}
    (h : (read (F := F)).Says c x) : Attempted c x := by
  unfold read at h
  rw [Prog.says_perform_bind] at h
  obtain ⟨_ | v, c, rfl, h⟩ := h
  · obtain ⟨rfl, rfl⟩ := Prog.says_pure.1 h
    exact .noVoltage
  simp only [] at h
  rw [Prog.says_perform_bind] at h
  obtain ⟨_ | i, c, rfl, h⟩ := h
  · obtain ⟨rfl, rfl⟩ := Prog.says_pure.1 h
    exact .noCurrent v
  simp only [] at h
  rw [Prog.says_perform_bind] at h
  obtain ⟨_ | p, c, rfl, h⟩ := h
  · obtain ⟨rfl, rfl⟩ := Prog.says_pure.1 h
    exact .noPower v i
  · obtain ⟨rfl, rfl⟩ := Prog.says_pure.1 h
    exact .sampled v i p

variable [FloatLike W] [Widening F W]

/-- The sum of a group's samples. -/
def total (g : List (Ina228Reading F)) : ReadingAccum W := g.foldl .add .zero

/-- What is published of a group. -/
def mean (W : Type) [FloatLike W] [Widening F W] (g : List (Ina228Reading F)) : Ina228Reading F :=
  (total g : ReadingAccum W).average samplesPerUpdate

/-- In exact arithmetic it is the group's mean. -/
theorem mean_exact {F : Type} [ExactField F] [Widening F F] (hw : ∀ a : F, (widen a : F) = a)
    (hn : ∀ a : F, (narrow a : F) = a) (g : List (Ina228Reading F))
    (hg : g.length = samplesPerUpdate) :
    mean F g = ⟨(g.map (·.voltage)).sum / g.length, (g.map (·.current)).sum / g.length,
      (g.map (·.power)).sum / g.length⟩ := by
  have hsum : ∀ (a : ReadingAccum F), g.foldl .add a = ⟨a.voltage + (g.map (·.voltage)).sum,
      a.current + (g.map (·.current)).sum, a.power + (g.map (·.power)).sum⟩ := by
    clear hg
    induction g with
    | nil => simp
    | cons r g ih =>
      intro a
      rw [List.foldl_cons, ih]
      simp [ReadingAccum.add, hw, add_assoc]
  have hzero : (0.0 : F) = 0 := by
    rw [ExactField.ofScientific_eq]
    simp
  unfold mean total
  rw [hsum, hg]
  simp [ReadingAccum.average, ReadingAccum.zero, hn, hzero]

/-- What `c` is made of: full groups of samples, of which `before` were read before it, and those
of the group that is still under way. -/
structure Grouped (W : Type) [FloatLike W] [Widening F W] (before : List (Ina228Reading F))
    (c : Talk F) (groups : List (List (Ina228Reading F))) (pending : List (Ina228Reading F)) :
    Prop where
  read : before ++ samples c = groups.flatten ++ pending
  full : ∀ g ∈ groups, g.length = samplesPerUpdate
  left : pending.length ≤ samplesPerUpdate
  published : published c = groups.map (mean W)
  recorded : recorded c = (c.filterMap failure).map .ina
  slept : slept c =
    List.replicate ((samples c).length + (c.filterMap failure).length) sampleInterval

theorem run_grouped {n : ℕ} {before : List (Ina228Reading F)} {c : Talk F} {acc : ReadingAccum W}
    {count : ℕ} (h : (run n (total before) before.length).Says c (acc, count))
    (hb : before.length ≤ samplesPerUpdate) :
    ∃ groups pending, Grouped W before c groups pending ∧ acc = total pending ∧
      count = pending.length := by
  induction n generalizing before c with
  | zero =>
    obtain ⟨rfl, hx⟩ := Prog.says_pure.1 h
    cases hx
    exact ⟨[], before, ⟨by simp [samples], by simp, hb, rfl, rfl, rfl⟩, rfl, rfl⟩
  | succ n ih =>
    unfold run at h
    split_ifs at h with hlt
    · rw [Prog.says_perform_bind] at h
      obtain ⟨_, c, rfl, h⟩ := h
      rw [Prog.says_bind] at h
      obtain ⟨x, c₁, c₂, rfl, hread, h⟩ := h
      have attempt := says_read hread
      cases x with
      | ok r =>
        have htotal : total (W := W) (before ++ [r]) = (total before).add r := by simp [total]
        have hlen : (before ++ [r]).length = before.length + 1 := by simp
        simp only [← htotal, ← hlen] at h
        obtain ⟨groups, pending, hg, hacc, hcount⟩ := ih h (by rw [hlen]; exact hlt)
        cases attempt with
        | sampled v i p =>
          refine ⟨groups, pending, ⟨?_, hg.full, hg.left, hg.published, hg.recorded, ?_⟩, hacc,
            hcount⟩
          · rw [← hg.read, List.append_assoc]
            rfl
          · show sampleInterval :: slept c₂ = List.replicate
              ((samples c₂).length + 1 + (c₂.filterMap failure).length) sampleInterval
            rw [hg.slept, ← List.replicate_succ]
            congr 1
            omega
      | error kind =>
        simp only [] at h
        rw [Prog.says_perform_bind] at h
        obtain ⟨_, c₃, rfl, h⟩ := h
        obtain ⟨groups, pending, hg, hacc, hcount⟩ := ih h hb
        have hslept : sampleInterval :: slept c₃ = List.replicate
            ((samples c₃).length + ((c₃.filterMap failure).length + 1)) sampleInterval := by
          rw [hg.slept, ← List.replicate_succ]
          congr 1
        have hrecorded : Event.ina kind :: recorded c₃
            = (kind :: c₃.filterMap failure).map .ina := by
          rw [hg.recorded, List.map_cons]
        cases attempt with
        | noVoltage | noCurrent | noPower =>
          exact ⟨groups, pending,
            ⟨hg.read, hg.full, hg.left, hg.published, hrecorded, hslept⟩, hacc, hcount⟩
    · have hfull : before.length = samplesPerUpdate := by omega
      rw [Prog.says_perform_bind] at h
      obtain ⟨_, c, rfl, h⟩ := h
      have h : (run n (total ([] : List (Ina228Reading F)))
          ([] : List (Ina228Reading F)).length).Says c (acc, count) := h
      obtain ⟨groups, pending, hg, hacc, hcount⟩ := ih h (Nat.zero_le _)
      refine ⟨before :: groups, pending, ⟨?_, ?_, hg.left, ?_, hg.recorded, hg.slept⟩, hacc, hcount⟩
      · rw [List.flatten_cons, List.append_assoc, ← hg.read]
        rfl
      · exact List.forall_mem_cons.2 ⟨hfull, hg.full⟩
      · rw [List.map_cons, ← hg.published]
        rfl

/-- Over any run of the thread from its start, whatever the sensor answers. -/
theorem readings_published {n : ℕ} {c : Talk F} {acc : ReadingAccum W} {count : ℕ}
    (h : (run n (.zero : ReadingAccum W) 0).Says c (acc, count)) :
    ∃ (groups : List (List (Ina228Reading F))) (pending : List (Ina228Reading F)),
      samples c = groups.flatten ++ pending ∧ (∀ g ∈ groups, g.length = samplesPerUpdate) ∧
      pending.length ≤ samplesPerUpdate ∧ published c = groups.map (mean W) ∧
      recorded c = (c.filterMap failure).map .ina ∧
      slept c = List.replicate ((samples c).length + (c.filterMap failure).length)
        sampleInterval := by
  have h : (run n (total ([] : List (Ina228Reading F)))
      ([] : List (Ina228Reading F)).length).Says c (acc, count) := h
  obtain ⟨groups, pending, hg, -, -⟩ := run_grouped h (Nat.zero_le _)
  exact ⟨groups, pending, hg.read, hg.full, hg.left, hg.published, hg.recorded, hg.slept⟩

/-- A sensor whose every fourth voltage does not read. -/
def flaky (k : ℕ) (op : InaOp ℚ) : op.Reply × ℕ :=
  match op with
  | .busVoltage => (if k % 4 = 3 then none else some (13 + k), k + 1)
  | .current => (some (-1), k)
  | .power => (some 13, k)
  | .sleep _ | .record _ | .updateBattery _ => ((), k)

def flakyTalk : Talk ℚ := ((run 16 (.zero : ReadingAccum ℚ) 0).converse flaky 0).1

theorem readings_published_flaky : ∃ (groups : List (List (Ina228Reading ℚ)))
    (pending : List (Ina228Reading ℚ)),
    samples flakyTalk = groups.flatten ++ pending ∧
      (∀ g ∈ groups, g.length = samplesPerUpdate) ∧ published flakyTalk = groups.map (mean ℚ) ∧
      groups.length = 1 ∧ recorded flakyTalk = List.replicate 3 (.ina .busVoltageRead) := by
  obtain ⟨groups, pending, hread, hfull, -, hpub, hrec, -⟩ :=
    readings_published (W := ℚ) (Prog.says_converse flaky (run 16 (.zero : ReadingAccum ℚ) 0) 0)
  have hlen : (published flakyTalk).length = 1 := by
    decide +kernel
  have hevents : (flakyTalk.filterMap failure).map Event.ina
      = List.replicate 3 (.ina .busVoltageRead) := by
    decide +kernel
  refine ⟨groups, pending, hread, hfull, hpub, ?_, hrec.trans hevents⟩
  rw [← hlen, show published flakyTalk = _ from hpub, List.length_map]

end Ina

end Esp32Battery
