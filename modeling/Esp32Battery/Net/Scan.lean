import Esp32Battery.Lib.Duration
import Esp32Battery.Lib.Tops

/-!
# The scan behind the portal

The access points last seen, each network once with its strongest signal, scanned for afresh only
once the last scan is old enough.
-/

namespace Esp32Battery

open Lib

def maxScanAps : ℕ := 10
def scanCacheTtl : Duration := .fromSecs 10

structure AccessPointInfo where
  ssid : String
  signalStrength : ℤ
deriving DecidableEq

abbrev ScanResult := List (String × ℤ)

/-- `sort_unstable_by_key`, strongest first: equal ones may end up in any order. -/
structure SortByStrength where
  sort : ScanResult → ScanResult
  perm : ∀ l, (sort l).Perm l
  sorted : ∀ l, (sort l).Pairwise fun a b => b.2 ≤ a.2

/-- A stable sort is one of them. -/
def SortByStrength.stable : SortByStrength where
  sort l := l.mergeSort fun a b => b.2 ≤ a.2
  perm l := List.mergeSort_perm l _
  sorted l := by
    have htotal : ∀ a b : String × ℤ, (decide (b.2 ≤ a.2) || decide (a.2 ≤ b.2)) = true := by
      intro a b
      simpa using le_total b.2 a.2
    have htrans : ∀ a b c : String × ℤ, decide (b.2 ≤ a.2) = true → decide (c.2 ≤ b.2) = true →
        decide (c.2 ≤ a.2) = true := by
      intro a b c hab hbc
      simp only [decide_eq_true_eq] at hab hbc ⊢
      exact hbc.trans hab
    simpa only [decide_eq_true_eq] using List.pairwise_mergeSort htrans htotal l

/-- What the radio answers to a scan, which looks for at most so many access points; `none` where
it fails. -/
abbrev ScanAnswer := Option { aps : List AccessPointInfo // aps.length ≤ maxScanAps }

namespace ScanResult

/-- A hidden network is passed over; a push beyond the capacity would be lost. -/
def note (entries : ScanResult) (ap : AccessPointInfo) : ScanResult :=
  if ap.ssid = "" then entries
  else if ap.ssid ∈ entries.map Prod.fst then raise ap.ssid ap.signalStrength entries
  else if entries.length < maxScanAps then entries ++ [(ap.ssid, ap.signalStrength)]
  else entries

def scanNow (s : SortByStrength) : ScanAnswer → ScanResult
  | none => []
  | some aps => s.sort (aps.1.foldl note [])

end ScanResult

/-- `at_ = none` where nothing was ever scanned. -/
structure CachedScan where
  at_ : Option Duration
  entries : ScanResult

namespace CachedScan

def new : CachedScan := ⟨none, []⟩

def stale (c : CachedScan) (now : Duration) : Bool :=
  match c.at_ with
  | none => true
  | some t => scanCacheTtl ≤ now.saturatingSub t

/-- `answer` is what the radio would answer now. -/
def refreshScanIfStale (s : SortByStrength) (c : CachedScan) (now : Duration)
    (answer : ScanAnswer) : CachedScan :=
  if !c.stale now then c else ⟨some now, ScanResult.scanNow s answer⟩

end CachedScan

end Esp32Battery
