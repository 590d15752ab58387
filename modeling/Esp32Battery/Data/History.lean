import Esp32Battery.Lib.Duration
import Esp32Battery.Lib.FloatLike
import Esp32Battery.Lib.Panic

/-!
# The history of readings

An adaptive-resolution store: raw samples are averaged `interval` at a time, a full store halves
itself by averaging pairs, and once the interval is at its cap the oldest entry goes instead.
-/

namespace Esp32Battery

open Lib

variable {F : Type} [FloatLike F]

structure Sample (F : Type) where
  timeS : ℕ
  voltage : F
  batteryCurrent : F
  psCurrent : F
  powerOnline : F
deriving DecidableEq

def historyCapacity : ℕ := 204

/-- Once the interval reaches this, the window slides instead of coarsening. -/
def maxInterval : ℕ := 64

structure SampleAccum (F : Type) where
  voltage : F
  batteryCurrent : F
  psCurrent : F
  powerOnline : F
deriving DecidableEq

namespace SampleAccum

def zero : SampleAccum F := ⟨0.0, 0.0, 0.0, 0.0⟩

def add (a : SampleAccum F) (s : Sample F) : SampleAccum F where
  voltage := a.voltage + s.voltage
  batteryCurrent := a.batteryCurrent + s.batteryCurrent
  psCurrent := a.psCurrent + s.psCurrent
  powerOnline := a.powerOnline + s.powerOnline

/-- Mean of the `n` samples added so far, stamped `timeS`. -/
def average (a : SampleAccum F) (n timeS : ℕ) : Except Panic (Sample F) := do
  require (0 < n) "cannot average zero samples"
  return {
    timeS
    voltage := a.voltage / (n : F)
    batteryCurrent := a.batteryCurrent / (n : F)
    psCurrent := a.psCurrent / (n : F)
    powerOnline := a.powerOnline / (n : F) }

theorem average_ok (a : SampleAccum F) {n : ℕ} (timeS : ℕ) (hn : 0 < n) :
    ∃ s, a.average n timeS = .ok s := by
  simp [average, hn]

end SampleAccum

structure History (F : Type) where
  samples : Deque (Sample F) historyCapacity
  interval : ℕ
  acc : SampleAccum F
  accCount : ℕ
deriving DecidableEq

namespace History

def new : History F := ⟨.new, 1, .zero, 0⟩

def lastTime (h : History F) : Option ℕ := h.samples.items.getLast?.map Sample.timeS

/-- Adjacent pairs averaged, each stamped by its later half; a last one without a partner is
dropped. -/
def pairAverages : (l : List (Sample F)) →
    Except Panic { l' : List (Sample F) // 2 * l'.length ≤ l.length }
  | a :: b :: rest => do
    let pair ← ((SampleAccum.zero.add a).add b).average 2 b.timeS
    let rest' ← pairAverages rest
    return ⟨pair :: rest'.1, by have := rest'.2; simp only [List.length_cons]; omega⟩
  | [] | [_] => .ok ⟨[], by simp⟩

theorem pairAverages_ok : ∀ l : List (Sample F), ∃ l', pairAverages l = .ok l'
  | [] | [_] => ⟨_, rfl⟩
  | a :: b :: rest => by
    obtain ⟨pair, hp⟩ := ((SampleAccum.zero.add a).add b).average_ok b.timeS (n := 2) (by decide)
    obtain ⟨rest', hr⟩ := pairAverages_ok rest
    simp only [pairAverages, hp, hr, ok_bind]
    exact ⟨_, rfl⟩

/-- Halve the store, doubling the interval each entry represents. -/
def compact (h : History F) : Except Panic (History F) := do
  let halved ← pairAverages h.samples.items
  let samples := ⟨halved.1, by have := halved.2; have := h.samples.length_le; omega⟩
  return { h with samples, interval := h.interval * 2 }

/-- Make room in a full store: coarsen it, or at the cap drop its oldest entry. -/
def makeRoom (h : History F) : Except Panic (History F) :=
  if h.samples.isFull then
    if h.interval < maxInterval then h.compact
    else .ok { h with samples := h.samples.popFront.2 }
  else .ok h

def commit (h : History F) (raw : Sample F) : Except Panic (History F) :=
  let h := { h with acc := h.acc.add raw, accCount := h.accCount + 1 }
  if h.accCount < h.interval then .ok h
  else do
    let averaged ← h.acc.average h.accCount raw.timeS
    let h ← makeRoom { h with acc := .zero, accCount := 0 }
    let samples ← expect (h.samples.pushBack averaged)
      "buffer has room after compacting or dropping"
    return { h with samples }

theorem makeRoom_ok (h : History F) :
    ∃ h', h.makeRoom = .ok h' ∧ h'.samples.items.length < historyCapacity := by
  have hlen := h.samples.length_le
  unfold makeRoom
  split_ifs with hfull hint
  · obtain ⟨halved, hp⟩ := pairAverages_ok h.samples.items
    have hhalf := halved.2
    simp only [compact, hp, ok_bind]
    refine ⟨_, rfl, ?_⟩
    simp only [historyCapacity] at hlen ⊢
    omega
  · refine ⟨_, rfl, ?_⟩
    simp only [Deque.popFront, List.length_tail, historyCapacity] at hlen ⊢
    omega
  · refine ⟨_, rfl, ?_⟩
    simp only [Deque.isFull, decide_eq_true_eq] at hfull
    omega

theorem commit_ok (h : History F) (raw : Sample F) : ∃ h', h.commit raw = .ok h' := by
  unfold commit
  simp only []
  split_ifs
  · exact ⟨_, rfl⟩
  obtain ⟨averaged, ha⟩ := (h.acc.add raw).average_ok raw.timeS (Nat.succ_pos h.accCount)
  obtain ⟨h', hroom, hlt⟩ := makeRoom_ok { h with acc := .zero, accCount := 0 }
  obtain ⟨samples, hpush⟩ : ∃ samples, h'.samples.pushBack averaged = some samples :=
    ⟨_, dif_pos hlt⟩
  simp only [ha, hroom, hpush, ok_bind, expect_some]
  exact ⟨_, rfl⟩

end History

end Esp32Battery
