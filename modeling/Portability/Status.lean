import Portability.Text.Ascii
import Portability.Text.Blank

/-! The verdict on a construct. -/
namespace Portability

/-- How well a construct is supported. The order of the constructors is the order of reports. -/
inductive Status where
  | supported
  | notSupported
  | reviewSemantics
  | reviewPerformance
  | reviewManually
  | ignored
  | objectCountOnly
  | rewritten
  deriving DecidableEq, Repr

namespace Status

def all : List Status :=
  [supported, notSupported, reviewSemantics, reviewPerformance, reviewManually, ignored,
   objectCountOnly, rewritten]

theorem mem_all (s : Status) : s ∈ all := by cases s <;> decide

def rank (s : Status) : Nat := s.ctorIdx

def label : Status → String
  | supported => "Supported"
  | notSupported => "Not supported"
  | reviewSemantics => "Review semantics"
  | reviewPerformance => "Review performance"
  | reviewManually => "Review manually"
  | ignored => "Ignored"
  | objectCountOnly => "Object count only"
  | rewritten => "Rewritten"

def key : Status → String
  | supported => "supported"
  | notSupported => "not_supported"
  | reviewSemantics => "review_semantics"
  | reviewPerformance => "review_performance"
  | reviewManually => "review_manually"
  | ignored => "ignored"
  | objectCountOnly => "object_count_only"
  | rewritten => "rewritten"

/-- The status that a text names by key or label, in any case. -/
def parse? (s : String) : Option Status :=
  let wanted := Text.trim s
  all.find? fun status => Text.same status.key wanted || Text.same status.label wanted

/-- The complaint about a text that names no status. -/
def unknownMessage (s : String) : String := "Unknown status: " ++ s

end Status

end Portability
