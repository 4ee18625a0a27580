import BulkTransfer.Json.Skip
import BulkTransfer.Text.Quoted

/-!
Reading a JSON text as a document of a known shape. What has the wrong shape is reported where its
container ends, unless it can be told at once.
-/

namespace BulkTransfer.Json

/-- Why a part of a document cannot be read. -/
inductive Misfit where
  | placed (failure : Failure)
  /-- A complaint that gets its place from the container around it. -/
  | unplaced (message : String) (cursor : Cursor)

/-- A reader of a part of a document. -/
abbrev Shape (α : Type) := Cursor → Except Misfit (α × Cursor)

/-- Takes over a failure that has its place. -/
def placed {α : Type} : Except Failure α → Except Misfit α
  | .ok a => .ok a
  | .error e => .error (.placed e)

/-- A scalar as a complaint names it. -/
def named : Json → String
  | null => "null"
  | bool true => "boolean `true`"
  | bool false => "boolean `false`"
  | int i => "integer `" ++ Integer.text i ++ "`"
  | float x => "floating point `" ++ String.ofList x.dataForm ++ "`"
  | string s => "string " ++ Text.quotedText s
  | array _ => "sequence"
  | object _ => "map"

/-- The complaint about a value where another kind is due. -/
def wrongKind {α : Type} (found expected : String) (c : Cursor) : Except Misfit α :=
  .error (.placed ⟨.shape ("invalid type: " ++ found ++ ", expected " ++ expected), c.position⟩)

/-- Complains about the value at a place, which is not of the expected kind. -/
def refuse {α : Type} (expected : String) (c : Cursor) : Except Misfit α :=
  match c.rest with
  | '[' :: _ => wrongKind "sequence" expected c
  | '{' :: _ => wrongKind "map" expected c
  | _ => match readValue 0 c with
    | .ok (j, c) => wrongKind (named j) expected c
    | .error e => .error (.placed e)

/-- The place after an attempt to end an object. -/
def afterObject (c : Cursor) : Cursor :=
  let c := c.skipSpace
  match c.rest with
  | '}' :: rest => c.pass '}' rest
  | _ => c

/-- The place after an attempt to end an array. -/
def afterList (c : Cursor) : Cursor :=
  let c := c.skipSpace
  match c.rest with
  | ']' :: rest => c.pass ']' rest
  | ',' :: rest => (c.pass ',' rest).skipSpace
  | _ => c

/-- Ends a container, and gives a complaint from inside it a place. -/
def enclose {α : Type} (close : Cursor → Except Failure Cursor) (after : Cursor → Cursor)
    (inner : Except Misfit (α × Cursor)) : Except Misfit (α × Cursor) :=
  match inner with
  | .ok (a, c) => match close c with
    | .ok c => .ok (a, c)
    | .error e => .error (.placed e)
  | .error (.placed e) => .error (.placed e)
  | .error (.unplaced message c) => .error (.placed ⟨.shape message, (after c).position⟩)

/-- Reads a string. -/
def textShape : Shape String := fun c =>
  let c := c.skipSpace
  match c.rest with
  | [] => placed (c.failNext .endInValue)
  | '"' :: rest => placed (readString (c.pass '"' rest))
  | _ :: _ => refuse "a string" c

/-- Reads null or a value. -/
def optional {α : Type} (some? : Shape α) : Shape (Option α) := fun c =>
  let c := c.skipSpace
  match c.rest with
  | 'n' :: rest =>
    placed ((Cursor.passWord "ull".toList (c.pass 'n' rest)).map fun c => (none, c))
  | _ => match some? c with
    | .ok (a, c) => .ok (some a, c)
    | .error e => .error e

/-- Reads items up to the closing bracket, in at most so many steps. -/
def itemsIn {α : Type} (item : Shape α) : Nat → Bool → Shape (List α)
  | 0, _, c => placed (c.failNext .endInList)
  | steps + 1, first, c => do
    match ← placed (nextItem first c) with
    | (none, c) => pure ([], c)
    | (some c, _) =>
      let (a, c) ← item c
      let (more, c) ← itemsIn item steps false c
      pure (a :: more, c)

/-- Reads an array. -/
def listShape {α : Type} (item : Shape α) : Shape (List α) := fun c =>
  let c := c.skipSpace
  match c.rest with
  | [] => placed (c.failNext .endInValue)
  | '[' :: rest =>
    enclose endList afterList (itemsIn item (rest.length + 1) true (c.pass '[' rest))
  | _ :: _ => refuse "a sequence" c

/-- Reads named members up to the closing brace, in at most so many steps. The name is passed and
its colon is not. -/
def membersIn {σ : Type} (member : String → σ → Shape σ) : Nat → Bool → σ → Shape σ
  | 0, _, _, c => placed (c.failNext .endInObject)
  | steps + 1, first, s, c => do
    match ← placed (nextName first c) with
    | (none, c) => pure (s, c)
    | (some c, _) =>
      let (name, c) ← placed (readString c)
      let (s, c) ← member name s c
      membersIn member steps false s c

/-- Reads the members of an object, behind its opening brace. -/
def objectBody {σ : Type} (member : String → σ → Shape σ) (start : σ) (rest : List Char)
    (c : Cursor) : Except Misfit (σ × Cursor) :=
  membersIn member (rest.length + 1) true start (c.pass '{' rest)

/-- Reads the value behind a colon. -/
def valueOf {α : Type} (value : Shape α) : Shape α := fun c => do value (← placed (passColon c))

/-- Passes a member that nobody asks for. -/
def skipMember {σ : Type} (s : σ) : Shape σ := fun c => do
  let c ← placed (passColon c)
  let c ← placed (skipValue c)
  pure (s, c)

/-- Reads an object whose members all have the same shape. -/
def mapShape {α : Type} (value : Shape α) : Shape (List (String × α)) := fun c =>
  let c := c.skipSpace
  let member (name : String) (pairs : List (String × α)) : Shape (List (String × α)) := fun c =>
    match valueOf value c with
    | .ok (a, c) => .ok ((name, a) :: pairs, c)
    | .error e => .error e
  match c.rest with
  | [] => placed (c.failNext .endInValue)
  | '{' :: rest => match enclose endObject afterObject (objectBody member [] rest c) with
    | .ok (pairs, c) => .ok (pairs.reverse, c)
    | .error e => .error e
  | _ :: _ => refuse "a map" c

/-- Reads any value within so many levels of nesting. -/
def anyShape (room : Nat) : Shape Json := fun c => placed (readValue room c)

/-- Sets a member once. -/
def setOnce {α σ : Type} (name : String) (old : Option α) (value : Shape α) (set : α → σ) :
    Shape σ := fun c =>
  match old with
  | some _ => .error (.unplaced ("duplicate field `" ++ name ++ "`") c)
  | none => match valueOf value c with
    | .ok (a, c) => .ok (set a, c)
    | .error e => .error e

/-- The next item of an array that stands for a structure. -/
def nextElement {α : Type} (first : Bool) (value : Shape α) : Shape (Option α) := fun c => do
  match ← placed (nextItem first c) with
  | (none, c) => pure (none, c)
  | (some c, _) =>
    let (a, c) ← value c
    pure (some a, c)

/-- Reads a structure with two members, from an object or from an array. `finish` makes it, or
says what it lacks; from an array without an element that must be there `short` is the
complaint. -/
def pairShape {α β γ : Type} (title firstName secondName : String) (first : Shape α)
    (second : Shape β) (finish : Option α → Option β → Except String γ) (short : String) :
    Shape γ := fun c =>
  let c := c.skipSpace
  let member (name : String) (s : Option α × Option β) : Shape (Option α × Option β) :=
    if name = firstName then setOnce name s.1 first fun a => (some a, s.2)
    else if name = secondName then setOnce name s.2 second fun b => (s.1, some b)
    else skipMember s
  let conclude (s : Option α × Option β) (complain : String → String) (c : Cursor) :
      Except Misfit (γ × Cursor) :=
    match finish s.1 s.2 with
    | .ok g => .ok (g, c)
    | .error e => .error (.unplaced (complain e) c)
  match c.rest with
  | [] => placed (c.failNext .endInValue)
  | '{' :: rest => enclose endObject afterObject (do
      let (s, c) ← objectBody member (none, none) rest c
      conclude s id c)
  | '[' :: rest => enclose endList afterList (do
      let (a?, c) ← nextElement true first (c.pass '[' rest)
      match a?, finish a? none with
      | none, .error _ => .error (.unplaced short c)
      | _, _ =>
        let (b?, c) ← nextElement a?.isNone second c
        conclude (a?, b?) (fun _ => short) c)
  | _ :: _ => refuse ("struct " ++ title) c

/-- Reads a whole document of a shape. -/
def parseShape {α : Type} (shape : Shape α) (s : List Char) : Except Failure α :=
  match shape (Cursor.start s) with
  | .ok (a, c) => finish a c
  | .error (.placed e) => .error e
  | .error (.unplaced message c) => .error ⟨.shape message, c.position⟩

end BulkTransfer.Json
