import Checkup.Toml.Text

/-!
# TOML documents

A document under construction: its table, the header under which assignments stand, and what may no
longer be opened or changed. A value that was written out is closed for good. A table may be opened
by one header only, and a table that dotted keys have opened may not be opened by a later header.
-/

namespace Checkup.Toml

structure Document where
  table : Table := []
  /-- The key of the table to which assignments belong. -/
  header : Key := []
  /-- The keys of tables that a header may not open again. -/
  opened : List Key := []
  /-- Keys that become so at the next header. -/
  pending : List Key := []
  /-- The keys of values that were written out. -/
  closed : List Key := []

/-- The table with a change to the one that `key` leads to. Missing tables are made on the way, and
of a list of tables the last one counts. -/
def within (change : Table → Except Value.Fault Table) : Key → Table → Except Value.Fault Table
  | [], table => change table
  | part :: key, table =>
    match Table.get? table part with
    | none => do
      let inner ← within change key []
      return Table.put table part (.table inner)
    | some (.table entries) => do
      let inner ← within change key entries
      return Table.put table part (.table inner)
    | some (.list items) =>
      match items.getLast? with
      | some (.table entries) => do
        let inner ← within change key entries
        return Table.put table part (.list (items.dropLast ++ [.table inner]))
      | _ => .error .malformed
    | some _ => .error .malformed

namespace Document

/-- Whether a key leads to or into a value that was written out. -/
def isClosed (document : Document) (key : Key) : Bool :=
  document.closed.any (·.isPrefixOf key)

/-- The document at a header: what was pending is decided. -/
def atHeader (document : Document) : Document :=
  { document with opened := document.pending ++ document.opened, pending := [] }

def openTable (document : Document) (key : Key) : Except Value.Fault Document := do
  let document := document.atHeader
  if document.opened.contains key || document.isClosed key then .error .malformed
  else
    let table ← within .ok key document.table
    return { document with table, header := key, opened := key :: document.opened }

def addItem (part : String) (table : Table) : Except Value.Fault Table :=
  match Table.get? table part with
  | none => .ok (Table.put table part (.list [.table []]))
  | some (.list items) => .ok (Table.put table part (.list (items ++ [.table []])))
  | some _ => .error .malformed

/-- The document after the header of a list item. Whatever lay below the key belongs to an earlier
item and may be given anew. -/
def openItem (document : Document) (key : Key) : Except Value.Fault Document := do
  let document := document.atHeader
  if document.isClosed key then .error .malformed
  else
    let table ← within (addItem (key.getLast?.getD "")) key.dropLast document.table
    return { document with
      table
      header := key
      opened := key :: document.opened.filter fun other => !key.isPrefixOf other
      closed := document.closed.filter fun other => !key.isPrefixOf other }

def addEntry (part : String) (value : Value) (table : Table) : Except Value.Fault Table :=
  if Table.has table part then .error .malformed else .ok (Table.put table part value)

def hasParts : Value → Bool
  | .list _ | .table _ => true
  | _ => false

def assign (document : Document) (key : Key) (value : Value) : Except Value.Fault Document := do
  let inner := (List.range (key.length - 1)).map fun i => document.header ++ key.take (i + 1)
  let parent := document.header ++ key.dropLast
  if inner.any document.opened.contains || document.isClosed parent then .error .malformed
  else
    let table ← within (addEntry (key.getLast?.getD "") value) parent document.table
    return { document with
      table
      pending := inner ++ document.pending
      closed :=
        if hasParts value then (document.header ++ key) :: document.closed else document.closed }

end Document

end Checkup.Toml
