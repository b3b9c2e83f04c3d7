import Checkup.Json.Token

/-!
# Reading JSON

A reader takes one token after the other and keeps the lists and tables that are still open, of
which there may not be too many. The first token that does not fit decides the fault.
-/

namespace Checkup.Json

inductive Frame where
  /-- The items so far, the latest first. -/
  | list (items : List Value)
  /-- The entries so far, and the key whose value is being read. -/
  | table (entries : Table) (key : CodeText)

inductive State where
  | needValue (frames : List Frame)
  /-- A value, or the end of a list that was just opened. -/
  | needItem (frames : List Frame)
  /-- A key, or the end of a table that was just opened. -/
  | needFirstKey (frames : List Frame)
  | needKey (entries : Table) (frames : List Frame)
  | needColon (key : CodeText) (entries : Table) (frames : List Frame)
  | afterValue (value : Value) (frames : List Frame)

def beginValue (frames : List Frame) : Token → Except Value.Fault State
  | .plain value => .ok (.afterValue value frames)
  | .text s => .ok (.afterValue (.str s) frames)
  | .openList =>
    if frames.length < Value.depthLimit then .ok (.needItem frames)
    else .error (.tooDeep .jsonList)
  | .openTable =>
    if frames.length < Value.depthLimit then .ok (.needFirstKey frames)
    else .error (.tooDeep .jsonTable)
  | .longInteger digits => .error (.longInteger digits)
  | _ => .error .malformed

def State.step : State → Token → Except Value.Fault State
  | .needValue frames, token => beginValue frames token
  | .needItem frames, .closeList => .ok (.afterValue (.list []) frames)
  | .needItem frames, token => beginValue (.list [] :: frames) token
  | .needFirstKey frames, .closeTable => .ok (.afterValue (.table []) frames)
  | .needFirstKey frames, .text key => .ok (.needColon key [] frames)
  | .needKey entries frames, .text key => .ok (.needColon key entries frames)
  | .needColon key entries frames, .colon => .ok (.needValue (.table entries key :: frames))
  | .afterValue value (.list items :: frames), .comma =>
    .ok (.needValue (.list (value :: items) :: frames))
  | .afterValue value (.list items :: frames), .closeList =>
    .ok (.afterValue (.list (value :: items).reverse) frames)
  | .afterValue value (.table entries key :: frames), .comma =>
    .ok (.needKey (Table.put entries key value) frames)
  | .afterValue value (.table entries key :: frames), .closeTable =>
    .ok (.afterValue (.table (Table.put entries key value)) frames)
  | _, _ => .error .malformed

/-- The value that was read, if nothing is open any more. -/
def State.result : State → Except Value.Fault Value
  | .afterValue value [] => .ok value
  | _ => .error .malformed

def read (text : List Char) : Except Value.Fault Value :=
  (tokens text).foldlM State.step (.needValue []) >>= State.result

end Checkup.Json
