import DatagramSession.Config.Scan
/-!
# Records in settings text

A record is written as an object, whose members may come in any order, or as a list of the values of
its fields in their order.  `readRecord` reads either form into a value that starts out with the
defaults; the last check comes before the end of a list is looked at.
-/
namespace DatagramSession.Config

/-- A named part of a record and how its value is read into the record. -/
structure Field (ρ : Type) where
  name : String
  read : ρ → List Char → Except Fault (ρ × List Char)

/-- A field that is read by a reader of its own. -/
def Field.of {ρ α : Type} (name : String) (read : List Char → Except Fault (α × List Char))
    (store : ρ → α → ρ) :
    Field ρ where
  name
  read r cs := do
    let (a, cs) ← read cs
    .ok (store r a, cs)

/-- Whether a list or an object goes on. -/
inductive Next where
  /-- The next element, or the next key after its quote, starts here. -/
  | more (cs : List Char)
  /-- There is none; these characters come next. -/
  | done (cs : List Char)

/-- Looks for the next element of a list and leaves the closing bracket in place. -/
def nextElement (first : Bool) (cs : List Char) : Except Fault Next :=
  match skipBlanks cs with
  | [] => .error .truncated
  | c :: rest =>
    if c = ']' then .ok (.done (c :: rest))
    else if first then .ok (.more (c :: rest))
    else if c = ',' then
      match skipBlanks rest with
      | [] => .error .truncated
      | c :: rest => if c = ']' then .error .malformed else .ok (.more (c :: rest))
    else .error .malformed

/-- Looks for the next key of an object and passes the closing brace. -/
def nextKey (first : Bool) (cs : List Char) : Except Fault Next :=
  let key : List Char → Except Fault Next
    | [] => .error .truncated
    | c :: rest => if c = '"' then .ok (.more rest) else .error .malformed
  match skipBlanks cs with
  | [] => .error .truncated
  | c :: rest =>
    if c = '\x7d' then .ok (.done rest)
    else if first then key (c :: rest)
    else if c = ',' then key (skipBlanks rest)
    else .error .malformed

/-- The closing bracket of a list. -/
def endList (cs : List Char) : Except Fault (List Char) :=
  match skipBlanks cs with
  | [] => .error .truncated
  | c :: rest => if c = ']' then .ok rest else .error .malformed

/-- The colon after a key. -/
def scanColon (cs : List Char) : Except Fault (List Char) :=
  match skipBlanks cs with
  | [] => .error .truncated
  | c :: rest => if c = ':' then .ok rest else .error .malformed

section
variable {ρ β : Type}

/-- Reads the elements of a list into the fields, until the list or the fields end. -/
def readElements : List (Field ρ) → Bool → ρ → List Char → Except Fault (ρ × List Char)
  | [], _, r, cs => .ok (r, cs)
  | f :: fields, first, r, cs => do
    match ← nextElement first cs with
    | .done cs => .ok (r, cs)
    | .more cs =>
      let (r, cs) ← f.read r cs
      readElements fields false r cs

/-- Reads the members of an object.  A field may be given once; an unknown name is refused if
`strict`, else its value is skipped.  The fuel bounds the number of members. -/
def readMembers (fields : List (Field ρ)) (strict : Bool) :
    Nat → Bool → List String → ρ → List Char → Except Fault (ρ × List Char)
  | 0, _, _, _, _ => .error .truncated
  | fuel + 1, first, given, r, cs => do
    match ← nextKey first cs with
    | .done cs => .ok (r, cs)
    | .more cs =>
      let (name, cs) ← scanText cs
      match fields.find? fun f => f.name = name with
      | some f =>
        if given.contains name then .error .unfit
        else
          let (r, cs) ← f.read r (← scanColon cs)
          readMembers fields strict fuel false (name :: given) r cs
      | none =>
        if strict then .error .unfit
        else readMembers fields strict fuel false given r (← skipValue (← scanColon cs))

/-- Reads a record in either form. -/
def readRecord (fields : List (Field ρ)) (strict : Bool) (start : ρ) (finish : ρ → Except Fault β)
    (cs : List Char) : Except Fault (β × List Char) :=
  match skipBlanks cs with
  | [] => .error .truncated
  | c :: rest =>
    if c = '[' then do
      let (r, rest) ← readElements fields true start rest
      let result ← finish r
      .ok (result, ← endList rest)
    else if c = '\x7b' then do
      let (r, rest) ← readMembers fields strict (rest.length + 1) true [] start rest
      .ok (← finish r, rest)
    else misfit (c :: rest)

end

end DatagramSession.Config
