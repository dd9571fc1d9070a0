import Mathlib.Data.List.Basic

/-!
# JSON texts

A `Document` is what a JSON text (RFC 8259) says, member by member: objects keep
every member in order of appearance, also when a key is repeated. `document`
reads a text into one. A `Value` is the tree most libraries build from it, in
which a later member replaces an earlier one of the same key.

Strings are sequences of Unicode scalar values: a text that escapes an unpaired
surrogate, whose meaning the RFC leaves open, has no document.
-/
namespace Json

inductive Document where
  | null
  | bool (b : Bool)
  | number (text : List Char)
  | string (s : String)
  | array (items : List Document)
  | object (members : List (String × Document))

inductive Value where
  | null
  | bool (b : Bool)
  | number (text : List Char)
  | string (s : String)
  | array (items : List Value)
  | object (members : List (String × Value))

mutual

/-- The tree of a document: of several members with one key the last one stays. -/
def Document.toValue : Document → Value
  | .null => .null
  | .bool b => .bool b
  | .number text => .number text
  | .string s => .string s
  | .array items => .array (valuesOf items)
  | .object members => .object (lastMembers members)

def valuesOf : List Document → List Value
  | [] => []
  | item :: rest => item.toValue :: valuesOf rest

def lastMembers : List (String × Document) → List (String × Value)
  | [] => []
  | (key, item) :: rest =>
    if rest.any (fun member => member.1 = key) then lastMembers rest
    else (key, item.toValue) :: lastMembers rest

end

mutual

/-- How deep arrays and objects nest. -/
def Document.depth : Document → Nat
  | .array items => depthOfItems items + 1
  | .object members => depthOfMembers members + 1
  | _ => 0

def depthOfItems : List Document → Nat
  | [] => 0
  | item :: rest => max item.depth (depthOfItems rest)

def depthOfMembers : List (String × Document) → Nat
  | [] => 0
  | (_, item) :: rest => max item.depth (depthOfMembers rest)

end

/-- The members of the outermost object, none when the text is not an object. -/
def Document.topMembers : Document → List (String × Document)
  | .object members => members
  | _ => []

/-! ## Reading -/

def skipSpace (cs : List Char) : List Char :=
  cs.dropWhile fun c => c = ' ' || c = '\t' || c = '\n' || c = '\r'

/-- `1*DIGIT`, as many as there are. -/
def readDigits (cs : List Char) : Option (List Char × List Char) :=
  match cs.span Char.isDigit with
  | ([], _) => none
  | (digits, rest) => some (digits, rest)

/-- `int = zero / ( digit1-9 *DIGIT )` -/
def readInt : List Char → Option (List Char × List Char)
  | '0' :: rest => some (['0'], rest)
  | cs => readDigits cs

/-- `frac = decimal-point 1*DIGIT`, optional. -/
def readFraction : List Char → Option (List Char × List Char)
  | '.' :: cs => (readDigits cs).map fun (digits, rest) => ('.' :: digits, rest)
  | cs => some ([], cs)

/-- `exp = e [ minus / plus ] 1*DIGIT`, optional. -/
def readExponent : List Char → Option (List Char × List Char)
  | c :: cs =>
    if c = 'e' || c = 'E' then
      let (sign, cs) := match cs with
        | '+' :: cs => (['+'], cs)
        | '-' :: cs => (['-'], cs)
        | cs => ([], cs)
      (readDigits cs).map fun (digits, rest) => (c :: sign ++ digits, rest)
    else some ([], c :: cs)
  | [] => some ([], [])

/-- `number = [ minus ] int [ frac ] [ exp ]` -/
def readNumber (cs : List Char) : Option (Document × List Char) := do
  let (minus, cs) := match cs with
    | '-' :: cs => (['-'], cs)
    | cs => ([], cs)
  let (int, cs) ← readInt cs
  let (frac, cs) ← readFraction cs
  let (exp, cs) ← readExponent cs
  return (.number (minus ++ int ++ frac ++ exp), cs)

def hexDigit (c : Char) : Option Nat :=
  if '0' ≤ c ∧ c ≤ '9' then some (c.toNat - '0'.toNat)
  else if 'a' ≤ c ∧ c ≤ 'f' then some (c.toNat - 'a'.toNat + 10)
  else if 'A' ≤ c ∧ c ≤ 'F' then some (c.toNat - 'A'.toNat + 10)
  else none

/-- `4HEXDIG`, a UTF-16 code unit. -/
def readUnit : List Char → Option (Nat × List Char)
  | a :: b :: c :: d :: rest => do
    let a ← hexDigit a
    let b ← hexDigit b
    let c ← hexDigit c
    let d ← hexDigit d
    return (((a * 16 + b) * 16 + c) * 16 + d, rest)
  | _ => none

/-- What follows `\u`: one code unit, or a surrogate pair written as two escapes. -/
def readUnicode (cs : List Char) : Option (Char × List Char) := do
  let (unit, rest) ← readUnit cs
  if 0xD800 ≤ unit ∧ unit < 0xDC00 then
    match rest with
    | '\\' :: 'u' :: cs =>
      let (low, rest) ← readUnit cs
      if 0xDC00 ≤ low ∧ low < 0xE000 then
        return (Char.ofNat (0x10000 + (unit - 0xD800) * 0x400 + (low - 0xDC00)), rest)
      else none
    | _ => none
  else if 0xDC00 ≤ unit ∧ unit < 0xE000 then none
  else return (Char.ofNat unit, rest)

/-- One character of a string, escaped or not; control characters must be escaped. -/
def readChar : List Char → Option (Char × List Char)
  | '\\' :: c :: rest =>
    if c = '"' then some ('"', rest)
    else if c = '\\' then some ('\\', rest)
    else if c = '/' then some ('/', rest)
    else if c = 'b' then some (Char.ofNat 0x08, rest)
    else if c = 'f' then some (Char.ofNat 0x0C, rest)
    else if c = 'n' then some ('\n', rest)
    else if c = 'r' then some ('\r', rest)
    else if c = 't' then some ('\t', rest)
    else if c = 'u' then readUnicode rest
    else none
  | c :: rest => if c = '\\' || c.toNat < 0x20 then none else some (c, rest)
  | [] => none

/-- The characters up to the closing quotation mark; each takes at least one
character of the text, whose length therefore bounds the rounds. -/
def readChars : Nat → List Char → Option (List Char × List Char)
  | 0, _ => none
  | _ + 1, '"' :: rest => some ([], rest)
  | rounds + 1, cs => do
    let (c, cs) ← readChar cs
    let (more, rest) ← readChars rounds cs
    return (c :: more, rest)

/-- A string after its opening quotation mark. -/
def readString (cs : List Char) : Option (String × List Char) :=
  (readChars (cs.length + 1) cs).map fun (chars, rest) => (String.ofList chars, rest)

mutual

/-- `value`, with no space before it. Every other call of the three functions
consumes a character, so twice the length of the text is bound enough. -/
def readValue : Nat → List Char → Option (Document × List Char)
  | 0, _ => none
  | bound + 1, cs =>
    match cs with
    | 'n' :: 'u' :: 'l' :: 'l' :: rest => some (.null, rest)
    | 't' :: 'r' :: 'u' :: 'e' :: rest => some (.bool true, rest)
    | 'f' :: 'a' :: 'l' :: 's' :: 'e' :: rest => some (.bool false, rest)
    | '"' :: rest => (readString rest).map fun (s, rest) => (.string s, rest)
    | '[' :: rest =>
      match skipSpace rest with
      | ']' :: rest => some (.array [], rest)
      | cs => (readItems bound cs).map fun (items, rest) => (.array items, rest)
    | '{' :: rest =>
      match skipSpace rest with
      | '}' :: rest => some (.object [], rest)
      | cs => (readMembers bound cs).map fun (members, rest) => (.object members, rest)
    | cs => readNumber cs

/-- `value *( value-separator value ) end-array` -/
def readItems : Nat → List Char → Option (List Document × List Char)
  | 0, _ => none
  | bound + 1, cs => do
    let (item, cs) ← readValue bound cs
    match skipSpace cs with
    | ',' :: cs =>
      let (items, rest) ← readItems bound (skipSpace cs)
      return (item :: items, rest)
    | ']' :: rest => return ([item], rest)
    | _ => none

/-- `member *( value-separator member ) end-object` -/
def readMembers : Nat → List Char → Option (List (String × Document) × List Char)
  | bound + 1, '"' :: cs => do
    let (key, cs) ← readString cs
    match skipSpace cs with
    | ':' :: cs =>
      let (item, cs) ← readValue bound (skipSpace cs)
      match skipSpace cs with
      | ',' :: cs =>
        let (members, rest) ← readMembers bound (skipSpace cs)
        return ((key, item) :: members, rest)
      | '}' :: rest => return ([(key, item)], rest)
      | _ => none
    | _ => none
  | _, _ => none

end

/-- `JSON-text = ws value ws`: the document of a text, if it is a JSON text. -/
def document (text : String) : Option Document :=
  let cs := text.toList
  match readValue (2 * cs.length + 2) (skipSpace cs) with
  | some (d, rest) => if skipSpace rest = [] then some d else none
  | none => none

/-- A parser to trees, which nests at most 127 levels deep. -/
def parse (text : String) : Except String Value :=
  match document text with
  | some d => if d.depth < 128 then .ok d.toValue else .error "recursion limit exceeded"
  | none => .error "expected value"

/-! ## Repeated members -/

/-- What a tree answers for a key. -/
def Value.member (key : String) : Value → Option Value
  | .object members => (members.find? fun member => member.1 = key).map Prod.snd
  | _ => none

/-- The last member of a key. -/
def lastMember (key : String) (members : List (String × Document)) : Option Document :=
  (members.reverse.find? fun member => member.1 = key).map Prod.snd

theorem lastMember_cons (key : String) (member : String × Document)
    (rest : List (String × Document)) :
    lastMember key (member :: rest) =
      (lastMember key rest).or (if member.1 = key then some member.2 else none) := by
  rw [lastMember, lastMember, List.reverse_cons, List.find?_append]
  cases found : rest.reverse.find? (fun m => m.1 = key) with
  | some m => simp
  | none => by_cases same : member.1 = key <;> simp [same]

theorem lastMember_none_iff (key : String) (members : List (String × Document)) :
    lastMember key members = none ↔ members.any (fun member => member.1 = key) = false := by
  simp [lastMember]

/-- A tree answers with the last of the members that the text has for a key. -/
theorem member_toValue (key : String) (d : Document) :
    d.toValue.member key = (lastMember key d.topMembers).map Document.toValue := by
  cases d with
  | object members =>
    simp only [Document.toValue, Value.member, Document.topMembers]
    induction members with
    | nil => rfl
    | cons member rest ih =>
      obtain ⟨k, item⟩ := member
      rw [lastMember_cons, lastMembers]
      by_cases repeated : rest.any (fun member => member.1 = k) = true
      -- The tree has dropped this member, and the last of its key comes later.
      · rw [if_pos repeated, ih]
        by_cases same : k = key
        · subst same
          cases last : lastMember k rest with
          | some found => simp
          | none => rw [(lastMember_none_iff k rest).mp last] at repeated; cases repeated
        · simp [same]
      -- The member is the last of its key.
      · rw [if_neg repeated, List.find?_cons]
        by_cases same : k = key
        · subst same
          have last : lastMember k rest = none :=
            (lastMember_none_iff k rest).mpr (Bool.eq_false_iff.mpr repeated)
          simp [last]
        · simpa [same] using ih
  | _ => rfl

/-- The values of all members that the outermost object has for a key, in order. -/
def Document.membersOf (key : String) (d : Document) : List Document :=
  (d.topMembers.filter fun member => member.1 = key).map Prod.snd

/-- The member a tree answers with is the last of all. -/
theorem lastMember_topMembers (key : String) (d : Document) :
    lastMember key d.topMembers = (d.membersOf key).getLast? := by
  rw [lastMember, Document.membersOf, List.getLast?_map, List.getLast?_eq_head?_reverse,
    ← List.filter_reverse, List.head?_filter]

end Json
