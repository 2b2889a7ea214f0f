import ModalInput.Toml.Value

/-!
# Tables under construction

A document builds its tables bit by bit, and how a table came about decides what may still be added
to it: a table that a header has declared is closed to dotted keys from outside and to a second
header, and a table that dotted keys made is closed to headers.
-/

namespace ModalInput.Toml

inductive Origin where
  /-- Declared by a header of its own. -/
  | header
  /-- Named on the way to another table. -/
  | implied
  /-- Made by a key with dots. -/
  | dotted
  deriving DecidableEq, Repr

inductive Node where
  | value (v : Value)
  | table (origin : Origin) (entries : List (String × Node))
  /-- The tables of one array, as headers in double brackets make them. -/
  | tables (items : List (List (String × Node)))

/-- A table with what made it. -/
structure Section where
  origin : Origin
  entries : List (String × Node)

namespace Section

def root : Section := ⟨.header, []⟩

def toNode (t : Section) : Node := .table t.origin t.entries

/-- Replaces an entry in its place, or adds it behind the others. -/
def put (t : Section) (k : String) (n : Node) : Section :=
  if (t.entries.lookup k).isSome then
    { t with entries := t.entries.map fun e => if e.1 = k then (k, n) else e }
  else { t with entries := t.entries ++ [(k, n)] }

/-- Changes the table that a path leads to.  Tables that are missing are made on the way, with
`via` as their origin.  An array of tables stands for its last table. -/
def within (via : Origin) (change : Section → Option Section) :
    List String → Section → Option Section
  | [], t => change t
  | k :: path, t => do
    let child ←
      match t.entries.lookup k with
      | none => (within via change path ⟨via, []⟩).map toNode
      | some (.value _) => none
      | some (.table origin entries) =>
        if origin = .header ∧ via = .dotted then none
        else (within via change path ⟨origin, entries⟩).map toNode
      | some (.tables items) =>
        match items.getLast? with
        | none => none
        | some last =>
          (within via change path ⟨.header, last⟩).map fun t =>
            .tables (items.dropLast ++ [t.entries])
    pure (t.put k child)

/-- Adds a value under a key with dots.  No key is given twice, and tables that dotted keys made
take values through dotted keys only. -/
def insert (t : Section) (path : List String) (k : String) (v : Value) : Option Section :=
  t.within .dotted (fun t =>
    if t.origin = .dotted ↔ path = [] then none
    else if (t.entries.lookup k).isSome then none
    else some (t.put k (.value v))) path

def declareTable (t : Section) (path : List String) (k : String) : Option Section :=
  t.within .implied (fun t =>
    match t.entries.lookup k with
    | none => some (t.put k (.table .header []))
    | some (.table .implied entries) => some (t.put k (.table .header entries))
    | some _ => none) path

def appendTable (t : Section) (path : List String) (k : String) : Option Section :=
  t.within .implied (fun t =>
    match t.entries.lookup k with
    | none => some (t.put k (.tables [[]]))
    | some (.tables items) => some (t.put k (.tables (items ++ [[]])))
    | some _ => none) path

end Section

/-! ## Finished values -/

mutual

def Node.toValue : Node → Value
  | .value v => v
  | .table _ entries => .table (Node.entryValues entries)
  | .tables items => .array (Node.tableValues items)

def Node.entryValues : List (String × Node) → Table
  | [] => []
  | (k, n) :: rest => (k, n.toValue) :: Node.entryValues rest

def Node.tableValues : List (List (String × Node)) → List Value
  | [] => []
  | entries :: rest => .table (Node.entryValues entries) :: Node.tableValues rest

end

def Section.toTable (t : Section) : Table := Node.entryValues t.entries

end ModalInput.Toml
