import StackBound.Duration
import StackBound.Fault

/-! What a run tells about itself while it goes on: which stage it is in, and how the cache fares. -/
namespace StackBound

inductive Event
  | parseStarted (kind : Bytes) (files : Int64)
  | parseFinished (kind : Bytes) (records : Int64) (took : Duration) (fault : Option Fault)
  | analysisStarted (scenarios entries : Int64)
  | scenarioFinished (label : Bytes) (total : Int64) (unbounded : Bool)
  | analysisFinished (took : Duration) (fault : Option Fault)
  | renderStarted (format : Bytes) (nodes : Int64)
  | renderFinished (format : Bytes) (took : Duration) (fault : Option Fault)
  | cacheHit (kind : Bytes)
  | cacheMiss (kind : Bytes)
  | cacheSet (kind : Bytes) (size : Int64)
  | cacheFailed (kind : Bytes) (fault : Option Fault)
  deriving DecidableEq, Repr

def Event.isCache : Event → Bool
  | .cacheHit _ | .cacheMiss _ | .cacheSet _ _ | .cacheFailed _ _ => true
  | _ => false

end StackBound
