import Esp32Battery.Lib.Duration

/-!
# The loops' timer
-/

namespace Esp32Battery

open Lib

structure LoopTimer where
  last : Duration
deriving DecidableEq

namespace LoopTimer

def lap (t : LoopTimer) (uptime : Duration) : Duration × LoopTimer :=
  (uptime.saturatingSub t.last, ⟨uptime⟩)

/-- The instant the last lap observed. -/
def now (t : LoopTimer) : Duration := t.last

@[simp] theorem nanos_lap (t : LoopTimer) (uptime : Duration) :
    (t.lap uptime).1.nanos = uptime.nanos - t.last.nanos := rfl

@[simp] theorem last_lap (t : LoopTimer) (uptime : Duration) : (t.lap uptime).2.last = uptime := rfl

end LoopTimer

end Esp32Battery
