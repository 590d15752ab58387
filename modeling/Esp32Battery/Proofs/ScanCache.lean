import Esp32Battery.Net.Scan

/-!
# What the portal shows of the air

However often the cache is asked for, scans are at least its lifetime apart, what it holds is what
the last one found, and that is never older than its lifetime: each network that has a name, once,
with the strongest signal it was seen at, strongest first.
-/

namespace Esp32Battery

open Lib

namespace ScanResult

/-- The networks of a scan that have a name, with each signal they were seen at. -/
def named (aps : List AccessPointInfo) : List (String × ℤ) :=
  (aps.filter fun ap => ap.ssid ≠ "").map fun ap => (ap.ssid, ap.signalStrength)

theorem named_concat (aps : List AccessPointInfo) (ap : AccessPointInfo) :
    named (aps ++ [ap]) =
      if ap.ssid = "" then named aps else named aps ++ [(ap.ssid, ap.signalStrength)] := by
  unfold named
  rw [List.filter_append, List.map_append]
  split_ifs with h <;> simp [h]

theorem mem_named {aps : List AccessPointInfo} {ssid : String} {strength : ℤ} :
    (ssid, strength) ∈ named aps ↔ ⟨ssid, strength⟩ ∈ aps ∧ ssid ≠ "" := by
  unfold named
  constructor
  · intro h
    obtain ⟨ap, hap, heq⟩ := List.mem_map.1 h
    obtain ⟨rfl, rfl⟩ := Prod.mk.inj heq
    simpa using List.mem_filter.1 hap
  · rintro ⟨hap, hname⟩
    exact List.mem_map.2 ⟨_, List.mem_filter.2 ⟨hap, by simpa using hname⟩, rfl⟩

theorem note_tops {aps : List AccessPointInfo} {ap : AccessPointInfo} {entries : ScanResult}
    (h : Tops (named aps) entries) (hroom : aps.length < maxScanAps) :
    Tops (named (aps ++ [ap])) (note entries ap) := by
  have hlen : entries.length < maxScanAps := by
    have hle := h.length_le
    have hnamed : (named aps).length ≤ aps.length := by
      rw [named, List.length_map]
      exact List.length_filter_le _ _
    omega
  rw [named_concat]
  unfold note
  split_ifs with hname hknown
  · exact h
  · exact h.raise hknown
  · exact h.push hknown

theorem foldl_note_tops {aps : List AccessPointInfo} (h : aps.length ≤ maxScanAps) :
    Tops (named aps) (aps.foldl note []) := by
  induction aps using List.reverseRecOn with
  | nil => exact .nil
  | append_singleton aps ap ih =>
    rw [List.length_append, List.length_singleton] at h
    rw [List.foldl_append]
    exact note_tops (ih (by omega)) (by omega)

theorem scanNow_tops (s : SortByStrength) (answer : ScanAnswer) :
    Tops (named (answer.elim [] Subtype.val)) (scanNow s answer) := by
  cases answer with
  | none => exact .nil
  | some aps => exact (foldl_note_tops aps.2).perm (s.perm _)

theorem scanNow_sorted (s : SortByStrength) (answer : ScanAnswer) :
    (scanNow s answer).Pairwise fun a b => b.2 ≤ a.2 := by
  cases answer with
  | none => exact .nil
  | some aps => exact s.sorted _

end ScanResult

/-- A call for the cache to be refreshed, and what a scan would find then. -/
structure ScanCall where
  now : Duration
  answer : ScanAnswer

namespace CachedScan

variable {s : SortByStrength} {c : CachedScan} {calls : List ScanCall} {call : ScanCall}

def refreshAll (s : SortByStrength) (c : CachedScan) (calls : List ScanCall) : CachedScan :=
  calls.foldl (fun c call => c.refreshScanIfStale s call.now call.answer) c

/-- The calls that scanned. -/
def scans (s : SortByStrength) (c : CachedScan) : List ScanCall → List ScanCall
  | [] => []
  | call :: calls =>
    (if c.stale call.now then [call] else []) ++
      scans s (c.refreshScanIfStale s call.now call.answer) calls

theorem scans_concat : scans s c (calls ++ [call]) =
    scans s c calls ++ if (refreshAll s c calls).stale call.now then [call] else [] := by
  induction calls generalizing c with
  | nil => exact List.append_nil _
  | cons x calls ih =>
    rw [List.cons_append, scans, ih, scans, List.append_assoc]
    rfl

/-- What the cache holds is what the last scan found. -/
structure Holds (s : SortByStrength) (scans : List ScanCall) (c : CachedScan) : Prop where
  last : c.at_ = scans.getLast?.map ScanCall.now
  entries : c.entries = scans.getLast?.elim [] fun x => ScanResult.scanNow s x.answer
  apart : scans.IsChain fun x y => x.now.nanos + scanCacheTtl.nanos ≤ y.now.nanos

theorem holds_refreshAll (calls : List ScanCall) :
    Holds s (scans s new calls) (refreshAll s new calls) := by
  induction calls using List.reverseRecOn with
  | nil => exact ⟨rfl, rfl, .nil⟩
  | append_singleton calls call ih =>
    rw [scans_concat, show refreshAll s new (calls ++ [call]) =
      (refreshAll s new calls).refreshScanIfStale s call.now call.answer from List.foldl_append]
    unfold refreshScanIfStale
    by_cases hstale : (refreshAll s new calls).stale call.now = true
    · rw [hstale, if_pos rfl, Bool.not_true, if_neg Bool.false_ne_true]
      refine ⟨by simp, by simp, List.isChain_append.2 ⟨ih.apart, by simp, fun x hx y hy => ?_⟩⟩
      obtain rfl : call = y := by simpa using hy
      have hat := ih.last
      rw [show (scans s new calls).getLast? = some x from hx] at hat
      unfold stale at hstale
      rw [hat] at hstale
      have hle : scanCacheTtl ≤ call.now.saturatingSub x.now := by simpa using hstale
      have hpos : 0 < scanCacheTtl.nanos := by decide
      rw [Duration.le_def, Duration.nanos_saturatingSub] at hle
      omega
    · rw [Bool.not_eq_true] at hstale
      rw [hstale, if_neg Bool.false_ne_true, List.append_nil, Bool.not_false, if_pos rfl]
      exact ih

/-- A cache that was just asked for is not stale, whether or not that scanned. -/
theorem scans_fresh (calls : List ScanCall) (call : ScanCall) :
    ∃ past scan, scans s new (calls ++ [call]) = past ++ [scan] ∧
      call.now.saturatingSub scan.now < scanCacheTtl := by
  rw [scans_concat]
  have hlast := (holds_refreshAll (s := s) calls).last
  by_cases hstale : (refreshAll s new calls).stale call.now = true
  · refine ⟨_, call, by rw [if_pos hstale], ?_⟩
    rw [Duration.lt_def, Duration.nanos_saturatingSub, Nat.sub_self]
    decide
  · rw [if_neg hstale, List.append_nil]
    unfold stale at hstale
    rcases hscans : (scans s new calls).getLast? with _ | scan
    · rw [hlast, hscans] at hstale
      exact absurd rfl hstale
    · obtain ⟨past, hpast⟩ := List.getLast?_eq_some_iff.1 hscans
      refine ⟨past, scan, hpast, ?_⟩
      rw [hlast, hscans] at hstale
      have hlt : ¬ scanCacheTtl ≤ call.now.saturatingSub scan.now := by simpa using hstale
      exact Nat.lt_of_not_le hlt

/-- What the portal is served after any calls for the cache, in any order of times. -/
theorem scan_served (s : SortByStrength) (calls : List ScanCall) (call : ScanCall) :
    ∃ past scan, scans s new (calls ++ [call]) = past ++ [scan] ∧
      ((past ++ [scan]).IsChain fun x y => x.now.nanos + scanCacheTtl.nanos ≤ y.now.nanos) ∧
      call.now.saturatingSub scan.now < scanCacheTtl ∧
      let entries := (refreshAll s new (calls ++ [call])).entries
      (entries.Pairwise fun a b => b.2 ≤ a.2) ∧ (entries.map Prod.fst).Nodup ∧
        ∀ ssid strength, (ssid, strength) ∈ entries ↔ IsGreatest
          { strength | ⟨ssid, strength⟩ ∈ scan.answer.elim [] Subtype.val ∧ ssid ≠ "" }
          strength := by
  obtain ⟨past, scan, hscans, hfresh⟩ := scans_fresh (s := s) calls call
  have hholds := holds_refreshAll (s := s) (calls ++ [call])
  have hentries := hholds.entries
  have hapart := hholds.apart
  rw [hscans] at hentries hapart
  rw [List.getLast?_concat, Option.elim_some] at hentries
  refine ⟨past, scan, hscans, hapart, hfresh, ?_⟩
  rw [hentries]
  have htops := ScanResult.scanNow_tops s scan.answer
  refine ⟨ScanResult.scanNow_sorted s scan.answer, htops.nodup, fun ssid strength => ?_⟩
  rw [htops.mem_iff]
  simp only [ScanResult.mem_named]

/-- A network seen twice, one without a name and a third, and a scan that would fail within the
lifetime of the first. -/
def twoCalls : List ScanCall :=
  [⟨.fromSecs 1, some ⟨[⟨"home", -60⟩, ⟨"", -40⟩, ⟨"cafe", -70⟩, ⟨"home", -50⟩], by decide⟩⟩,
    ⟨.fromSecs 9, none⟩]

theorem scan_served_stable : (scans .stable new twoCalls).map ScanCall.now = [.fromSecs 1] ∧
    ("home", -50) ∈ (refreshAll .stable new twoCalls).entries ∧
    ("cafe", -70) ∈ (refreshAll .stable new twoCalls).entries ∧
    (∀ strength, ("", strength) ∉ (refreshAll .stable new twoCalls).entries) ∧
    ((refreshAll .stable new twoCalls).entries.map Prod.fst).Nodup := by
  obtain ⟨past, scan, hscans, -, -, -, hnodup, hentries⟩ :=
    scan_served .stable twoCalls.dropLast ⟨.fromSecs 9, none⟩
  have hone : past ++ [scan] = twoCalls.take 1 := hscans.symm
  obtain ⟨rfl, rfl⟩ : past = [] ∧ scan = twoCalls.head (by decide) := by
    simpa [twoCalls] using (List.append_eq_singleton_iff.1 hone).resolve_right (by simp)
  refine ⟨rfl, (hentries _ _).2 ⟨?_, ?_⟩, (hentries _ _).2 ⟨?_, ?_⟩, fun strength h => ?_, hnodup⟩
  · simp [twoCalls]
  · rintro strength ⟨hmem, -⟩
    simp [twoCalls] at hmem
    omega
  · simp [twoCalls]
  · rintro strength ⟨hmem, -⟩
    simp [twoCalls] at hmem
    omega
  · exact ((hentries _ _).1 h).1.2 rfl

end CachedScan

end Esp32Battery
