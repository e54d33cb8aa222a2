import Mathlib.Data.List.Dedup
import DexConnectors.LibJson
/-!
# LibJsonTree — the value that a text denotes

Strings are read and the text of numbers is kept.  The members of an object stay in order; `get` takes the last of a name.
`decode` reads the first value of a text and leaves what comes after it, as a decoder of a stream of values does.
-/
namespace Lib
namespace Json

inductive Tree where
  | null
  | bool (b : Bool)
  | number (text : Bytes)
  | string (text : Bytes)
  | array (items : List Tree)
  | object (members : List (Bytes × Tree))

abbrev Members := List (Bytes × Tree)

def get (members : Members) (name : Bytes) : Option Tree := members.reverse.lookup name

/-- The names of an object, each once and in order of their bytes. -/
def sortedKeys (members : Members) : List Bytes := ((members.map Prod.fst).dedup).mergeSort (fun a b => decide (a ≤ b))

/-! ## Of tokens -/

def ofLiteral (text : Bytes) : Tree :=
  if text = ascii "true" then .bool true
  else if text = ascii "false" then .bool false
  else if text = ascii "null" then .null
  else .number text

mutual

/-- The value at the head of the tokens, and those after it; the number bounds the calls. -/
def build : Nat → List Token → Option (Tree × List Token)
  | _, .literal text :: rest => some (ofLiteral text, rest)
  | _, .string body :: rest => some (.string (unquote body), rest)
  | n + 1, .punct b :: rest =>
    if b = 0x7B then (buildMembers n rest).map (fun p => (.object p.1, p.2))
    else if b = 0x5B then (buildItems n rest).map (fun p => (.array p.1, p.2)) else none
  | _, _ => none

def buildItems : Nat → List Token → Option (List Tree × List Token)
  | 0, _ => none
  | n + 1, ts =>
    if ts.head? = some (.punct 0x5D) then some ([], ts.tail)
    else
      match build n ts with
      | some (item, .punct b :: rest) =>
        if b = 0x5D then some ([item], rest)
        else if b = 0x2C then (buildItems n rest).map (fun p => (item :: p.1, p.2)) else none
      | _ => none

def buildMembers : Nat → List Token → Option (Members × List Token)
  | _, .punct b :: rest => if b = 0x7D then some ([], rest) else none
  | n + 1, .string name :: .punct b :: rest =>
    if b = 0x3A then
      match build n rest with
      | some (value, .punct c :: rest) =>
        if c = 0x7D then some ([(unquote name, value)], rest)
        else if c = 0x2C then (buildMembers n rest).map (fun p => ((unquote name, value) :: p.1, p.2)) else none
      | _ => none
    else none
  | _, _ => none

end

/-- Each call is either followed by a token that it takes, or by a call that takes one. -/
def ofTokens (ts : List Token) : Option (Tree × List Token) := build (2 * ts.length) ts

/-! ## Of a text -/

/-- A number, as far as it goes. -/
def takeNumber : NumberState → Bytes → Bytes × Bytes
  | _, [] => ([], [])
  | s, b :: rest =>
    if s.step b = .bad then ([], b :: rest) else (b :: (takeNumber (s.step b) rest).1, (takeNumber (s.step b) rest).2)

def takeLiteral (bs : Bytes) : Option (Bytes × Bytes) :=
  match [ascii "true", ascii "false", ascii "null"].find? (·.isPrefixOf bs) with
  | some word => some (word, bs.drop word.length)
  | none => if isNumber (takeNumber .start bs).1 then some (takeNumber .start bs) else none

/-- The first token of a text. -/
def lexOne : Bytes → Option (Token × Bytes)
  | [] => none
  | b :: rest =>
    if isSpace b then lexOne rest
    else if isPunct b then some (.punct b, rest)
    else if b = 0x22 then (scanString rest).map (fun p => (.string p.1, p.2))
    else (takeLiteral (b :: rest)).map (fun p => (.literal p.1, p.2))

/-- The tokens up to the end of the value, and the text after it; the number bounds how many. -/
def readFrom (limit : Nat) : Nat → Scan → Bytes → Option (List Token × Bytes)
  | 0, _, _ => none
  | n + 1, s, bs =>
    match lexOne bs with
    | none => none
    | some (t, rest) =>
      match s.step limit t with
      | none => none
      | some s' =>
        if s' = ⟨[], .more⟩ then some ([t], rest) else (readFrom limit n s' rest).map (fun p => (t :: p.1, p.2))

/-- **The first value of a text**, and what comes after it. -/
def decode (limit : Nat) (bs : Bytes) : Option (Tree × Bytes) :=
  match readFrom limit bs.length ⟨[], .value⟩ bs with
  | none => none
  | some (ts, rest) => (ofTokens ts).map (fun p => (p.1, rest))

/-! ## Members -/

theorem sizeOf_mem {members : Members} {m : Bytes × Tree} (h : m ∈ members) : sizeOf m.2 < sizeOf members := by
  have hm := List.sizeOf_lt_of_mem h
  have hp : sizeOf m = 1 + sizeOf m.1 + sizeOf m.2 := rfl
  omega

theorem mem_of_get {members : Members} {name : Bytes} {value : Tree} (h : get members name = some value) :
    (name, value) ∈ members := by
  obtain ⟨before, after, hsplit, -⟩ := List.lookup_eq_some_iff.1 h
  exact List.mem_reverse.1 (hsplit ▸ List.mem_append_right _ List.mem_cons_self)

theorem mem_sortedKeys {members : Members} {name : Bytes} : name ∈ sortedKeys members ↔ ∃ value, (name, value) ∈ members := by
  unfold sortedKeys
  rw [List.mem_mergeSort, List.mem_dedup, List.mem_map]
  exact ⟨fun ⟨m, hm, hname⟩ => ⟨m.2, hname ▸ hm⟩, fun ⟨value, hm⟩ => ⟨(name, value), hm, rfl⟩⟩

end Json
end Lib
