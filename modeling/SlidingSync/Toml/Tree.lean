import SlidingSync.Settings.Setting

/-!
# Tables under construction

The lines of a TOML document open tables and put values into them. A table may be opened by its
header once, also after it came into being on the way to another table; dotted keys may only add
to tables that dotted keys made. `Node.Entries.settings` gives the finished tables.
-/

namespace SlidingSync.Toml

/-- How a table came into being. -/
inductive Origin
  /-- By a header of its own. -/
  | header
  /-- On the way to the table of a header. -/
  | implied
  /-- By a dotted key. -/
  | dotted
  deriving DecidableEq

inductive Node
  | value (setting : Setting)
  | table (origin : Origin) (entries : List (String × Node))
  /-- Tables of one name, in the order of their headers. -/
  | tables (elements : List (List (String × Node)))

namespace Node

/-- The contents of a table in the order in which its keys came up. -/
abbrev Entries :=
  List (String × Node)

def replace (entries : Entries) (key : String) (node : Node) : Entries :=
  entries.map fun entry => if entry.1 == key then (key, node) else entry

/--
The entries after `f` has changed the table at the end of a path. Tables that
are missing on the way come into being as `made`; of tables with one name the
last is meant.
-/
def update (made : Origin) (f : Origin → Entries → Option Entries) (origin : Origin) :
    List String → Entries → Option Entries
  | [], entries => f origin entries
  | key :: path, entries =>
      match entries.lookup key with
      | none => do
          let sub ← update made f made path []
          return entries ++ [(key, .table made sub)]
      | some (.value _) => none
      | some (.table own sub) =>
          if made = .dotted ∧ own = .header then none
          else do
            let sub ← update made f own path sub
            return replace entries key (.table own sub)
      | some (.tables elements) => do
          let last ← elements.getLast?
          let last ← update made f .header path last
          return replace entries key (.tables (elements.dropLast ++ [last]))

/-- The entries with a value under a key that may be dotted. -/
def putValue (entries : Entries) (path : List String) (key : String) (value : Setting) :
    Option Entries :=
  update .dotted
    (fun origin entries =>
      if (origin == .dotted) == path.isEmpty then none
      else if (entries.lookup key).isSome then none
      else some (entries ++ [(key, .value value)]))
    .header path entries

def openTable (entries : Entries) (path : List String) (key : String) : Option Entries :=
  update .implied
    (fun _ entries =>
      match entries.lookup key with
      | none => some (entries ++ [(key, .table .header [])])
      | some (.table .implied sub) => some (replace entries key (.table .header sub))
      | _ => none)
    .header path entries

def addTable (entries : Entries) (path : List String) (key : String) : Option Entries :=
  update .implied
    (fun _ entries =>
      match entries.lookup key with
      | none => some (entries ++ [(key, .tables [[]])])
      | some (.tables elements) => some (replace entries key (.tables (elements ++ [[]])))
      | _ => none)
    .header path entries

mutual

def setting : Node → Setting
  | .value s => s
  | .table _ entries => .table (settings entries)
  | .tables elements => .list (elementSettings elements)
termination_by structural node => node

def elementSettings : List (List (String × Node)) → List Setting
  | [] => []
  | entries :: rest => .table (settings entries) :: elementSettings rest
termination_by structural elements => elements

def settings : List (String × Node) → List (String × Setting)
  | [] => []
  | (key, node) :: rest => (key, node.setting) :: settings rest
termination_by structural entries => entries

end

end Node

end SlidingSync.Toml
