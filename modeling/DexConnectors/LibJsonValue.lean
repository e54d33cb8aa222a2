import Mathlib.Data.List.Basic
/-!
# LibJsonValue — JSON values as trees

What a decoder returns and an encoder takes.  Members of an object are kept in order; a decoder that meets a name twice
keeps the last.  Numbers are a parameter: what a number is depends on the language that decodes it.
-/
namespace Lib

inductive Scalar (N : Type) where
  | null
  | bool (b : Bool)
  | number (n : N)
  | string (text : String)
  deriving DecidableEq, Repr

inductive JsonValue (N : Type) where
  | scalar (s : Scalar N)
  | array (items : List (JsonValue N))
  | object (members : List (String × JsonValue N))

namespace JsonValue

variable {N : Type}

instance : Inhabited (JsonValue N) := ⟨.scalar .null⟩

@[match_pattern] def null : JsonValue N := .scalar .null

@[match_pattern] def bool (b : Bool) : JsonValue N := .scalar (.bool b)

@[match_pattern] def number (n : N) : JsonValue N := .scalar (.number n)

@[match_pattern] def string (text : String) : JsonValue N := .scalar (.string text)

def isObject : JsonValue N → Bool
  | .object _ => true
  | _ => false

/-- A member by name. -/
def get (members : List (String × JsonValue N)) (name : String) : Option (JsonValue N) := members.lookup name

/-! ## Equality -/

section

variable [DecidableEq N]

mutual

def decEq : (a b : JsonValue N) → Decidable (a = b)
  | .scalar s, .scalar t => if h : s = t then isTrue (by rw [h]) else isFalse (fun heq => h (by cases heq; rfl))
  | .array xs, .array ys =>
    match decEqItems xs ys with
    | isTrue h => isTrue (by rw [h])
    | isFalse h => isFalse (fun heq => h (by cases heq; rfl))
  | .object xs, .object ys =>
    match decEqMembers xs ys with
    | isTrue h => isTrue (by rw [h])
    | isFalse h => isFalse (fun heq => h (by cases heq; rfl))
  | .scalar _, .array _ | .scalar _, .object _ | .array _, .scalar _ | .array _, .object _ | .object _, .scalar _
  | .object _, .array _ => isFalse (fun heq => by cases heq)

def decEqItems : (a b : List (JsonValue N)) → Decidable (a = b)
  | [], [] => isTrue rfl
  | x :: xs, y :: ys =>
    match decEq x y, decEqItems xs ys with
    | isTrue h, isTrue h' => isTrue (by rw [h, h'])
    | isFalse h, _ => isFalse (fun heq => h (by cases heq; rfl))
    | _, isFalse h => isFalse (fun heq => h (by cases heq; rfl))
  | [], _ :: _ | _ :: _, [] => isFalse (fun heq => by cases heq)

def decEqMembers : (a b : List (String × JsonValue N)) → Decidable (a = b)
  | [], [] => isTrue rfl
  | (k, x) :: xs, (l, y) :: ys =>
    if hk : k = l then
      match decEq x y, decEqMembers xs ys with
      | isTrue h, isTrue h' => isTrue (by rw [hk, h, h'])
      | isFalse h, _ => isFalse (fun heq => h (by cases heq; rfl))
      | _, isFalse h => isFalse (fun heq => h (by cases heq; rfl))
    else isFalse (fun heq => hk (by cases heq; rfl))
  | [], _ :: _ | _ :: _, [] => isFalse (fun heq => by cases heq)

end

instance : DecidableEq (JsonValue N) := decEq

example : (.object [("a", .array [.number 1])] : JsonValue Nat) ≠ .object [("a", .array [.number 2])] := by decide

end

end JsonValue
end Lib
