import ShareBroker.Relation
import ShareBroker.Net.Address
import ShareBroker.Json.Read

/-! # Errors

Every operation of the library that can fail returns an `Error`. Each constructor is one cause;
`Error.message` holds all the wording, so a cause and its text never drift apart.

The texts embed what the failing step reported: a JSON reading error with its place, a YAML
error, the output of a host command.
-/

namespace ShareBroker

/-- Why an operation failed. -/
inductive Error where
  /-- Reading or writing a file failed. -/
  | io (text : String)
  /-- The configuration is not valid YAML, or does not fit its schema. -/
  | yaml (text : String)
  /-- A JSON text stored in a databag could not be read. -/
  | json (e : Json.ReadError)
  /-- A host command failed with the given output. -/
  | hookTool (command : String) (output : String)
  /-- The relation is gone. -/
  | relationBroken (r : Relation)
  /-- The unit had to be the leader of its application. -/
  | notLeader (unit : String)
  /-- A server address is not valid. -/
  | invalidHost (host : String) (e : AddressError)
  /-- An endpoint URI could not be decoded. -/
  | invalidUri (uri : String) (reason : String)
  /-- A record is incomplete or does not decode. -/
  | invalidRecord (reason : String)
  /-- A secret could not be stored or resolved. -/
  | secret (reason : String)
  /-- The mount table could not be applied. -/
  | mount (reason : String)
  /-- A package could not be installed. -/
  | package (name : String) (reason : String)
  /-- Two relations ask for things that cannot both hold. -/
  | relationConflict (endpoint : String) (reason : String)

namespace Error

/-- The message of an error. -/
def message : Error → String
  | .io t => "I/O error: " ++ t
  | .yaml t => "YAML Error: " ++ t
  | .json e => "JSON Error: " ++ e.message
  | .hookTool c o => "Error running hook tool `" ++ c ++ "`: `" ++ o ++ "`"
  | .relationBroken r => "Relation `" ++ r.toString ++ "` has been torn down"
  | .notLeader u => "Unit `" ++ u ++ "` is not the application leader"
  | .invalidHost h e => "Invalid host `" ++ h ++ "`: " ++ e.reason
  | .invalidUri u r => "Invalid endpoint URI `" ++ u ++ "`: " ++ r
  | .invalidRecord r => "Invalid record: " ++ r
  | .secret r => "Secret error: " ++ r
  | .mount r => "Failed to mount filesystems: " ++ r
  | .package n r => "Failed to install package `" ++ n ++ "`: " ++ r
  | .relationConflict e r => "Conflicting relations on `" ++ e ++ "`: " ++ r

end Error

/-- A computation that may fail with an `Error`. -/
abbrev Outcome := Except Error

end ShareBroker
