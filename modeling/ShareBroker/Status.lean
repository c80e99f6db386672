/-! # Workload status

A unit, and the leader for its application, reports one status: active, blocked, waiting or
maintenance, with a message. It is shown as `<name>: <message>`.
-/

namespace ShareBroker

/-- A workload status. -/
inductive Status where
  | active (message : String)
  | blocked (message : String)
  | waiting (message : String)
  | maintenance (message : String)
  deriving DecidableEq, Inhabited

namespace Status

/-- The name of the status. -/
def name : Status → String
  | .active _ => "active"
  | .blocked _ => "blocked"
  | .waiting _ => "waiting"
  | .maintenance _ => "maintenance"

/-- The message of the status. -/
def message : Status → String
  | .active m | .blocked m | .waiting m | .maintenance m => m

/-- How the status is shown. -/
def display (s : Status) : String := s.name ++ ": " ++ s.message

/-- The status of a name and message, if the name is one of the four. -/
def ofName? (name message : String) : Option Status :=
  match name with
  | "active" => some (.active message)
  | "blocked" => some (.blocked message)
  | "waiting" => some (.waiting message)
  | "maintenance" => some (.maintenance message)
  | _ => none

end Status

end ShareBroker
