import DexConnectors.LibUtf8
/-!
# LibSha1 — SHA-1 and the UUIDs made with it

The digest of a message of whole bytes, and the version-5 UUID of a name in a namespace: the first sixteen bytes of the digest
of the namespace followed by the name, with the version and the variant written over six of their bits.
-/
namespace Lib
namespace Sha1

open Utf8

/-- The last `n` bytes of a number, the most significant first. -/
def bigEndian : Nat → Nat → Bytes
  | 0, _ => []
  | n + 1, value => bigEndian n (value / 256) ++ [value.toUInt8]

/-- A `1` bit, zeros up to 56 bytes of a block, and the length in bits. -/
def pad (message : Bytes) : Bytes :=
  message ++ 0x80 :: List.replicate ((119 - message.length % 64) % 64) 0 ++ bigEndian 8 (8 * message.length)

def word (a b c d : UInt8) : UInt32 := (a.toUInt32 <<< 24) ||| (b.toUInt32 <<< 16) ||| (c.toUInt32 <<< 8) ||| d.toUInt32

def words : Bytes → List UInt32
  | a :: b :: c :: d :: rest => word a b c d :: words rest
  | _ => []

def rotl (x n : UInt32) : UInt32 := (x <<< n) ||| (x >>> (32 - n))

/-- The words of the schedule, the last one first; the number is how many are still to be made. -/
def extend : Nat → List UInt32 → List UInt32
  | 0, ws => ws
  | n + 1, ws => extend n (rotl (ws.getD 2 0 ^^^ ws.getD 7 0 ^^^ ws.getD 13 0 ^^^ ws.getD 15 0) 1 :: ws)

def schedule (block : Bytes) : List UInt32 := (extend 64 (words block).reverse).reverse

structure State where
  a : UInt32
  b : UInt32
  c : UInt32
  d : UInt32
  e : UInt32
  deriving DecidableEq

def State.initial : State := ⟨0x67452301, 0xEFCDAB89, 0x98BADCFE, 0x10325476, 0xC3D2E1F0⟩

/-- The function and the constant of round `t`. -/
def mix (t : Nat) (b c d : UInt32) : UInt32 :=
  if t < 20 then ((b &&& c) ||| (~~~b &&& d)) + 0x5A827999
  else if t < 40 then (b ^^^ c ^^^ d) + 0x6ED9EBA1
  else if t < 60 then ((b &&& c) ||| (b &&& d) ||| (c &&& d)) + 0x8F1BBCDC
  else (b ^^^ c ^^^ d) + 0xCA62C1D6

def rounds : Nat → State → List UInt32 → State
  | _, s, [] => s
  | t, s, w :: ws => rounds (t + 1) ⟨rotl s.a 5 + mix t s.b s.c s.d + s.e + w, s.a, rotl s.b 30, s.c, s.d⟩ ws

def compress (s : State) (block : Bytes) : State :=
  let r := rounds 0 s (schedule block)
  ⟨s.a + r.a, s.b + r.b, s.c + r.c, s.d + r.d, s.e + r.e⟩

/-- The blocks of a padded message; the number bounds how many. -/
def blocks : Nat → State → Bytes → State
  | 0, s, _ => s
  | n + 1, s, message => if message = [] then s else blocks n (compress s (message.take 64)) (message.drop 64)

def State.digest (s : State) : Bytes := [s.a, s.b, s.c, s.d, s.e].flatMap (fun w => bigEndian 4 w.toNat)

/-- **SHA-1.** -/
def sha1 (message : Bytes) : Bytes := (blocks (pad message).length .initial (pad message)).digest

theorem length_bigEndian : ∀ n value, (bigEndian n value).length = n
  | 0, _ => rfl
  | n + 1, value => by simp [bigEndian, length_bigEndian n]

theorem length_sha1 (message : Bytes) : (sha1 message).length = 20 := by
  simp [sha1, State.digest, length_bigEndian]

example : sha1 (ascii "abc") =
    [0xA9, 0x99, 0x3E, 0x36, 0x47, 0x06, 0x81, 0x6A, 0xBA, 0x3E, 0x25, 0x71, 0x78, 0x50, 0xC2, 0x6C, 0x9C, 0xD0, 0xD8, 0x9D] := by
  decide +kernel

/-! ## UUIDs -/

def overwrite (keep mark b : UInt8) : UInt8 := (b &&& keep) ||| mark

/-- Sixteen bytes with the version and the variant of a UUID written over them. -/
def stamp (version : UInt8) (bytes : Bytes) : Bytes :=
  (bytes.modify 6 (overwrite 0x0F (version <<< 4))).modify 8 (overwrite 0x3F 0x80)

/-- **The version-5 UUID of a name.** -/
def uuid5 (namespaceID name : Bytes) : Bytes := stamp 5 ((sha1 (namespaceID ++ name)).take 16)

theorem length_uuid5 (namespaceID name : Bytes) : (uuid5 namespaceID name).length = 16 := by
  simp [uuid5, stamp, length_sha1]

/-- The namespace of URLs. -/
def namespaceURL : Bytes := [0x6B, 0xA7, 0xB8, 0x11, 0x9D, 0xAD, 0x11, 0xD1, 0x80, 0xB4, 0x00, 0xC0, 0x4F, 0xD4, 0x30, 0xC8]

end Sha1
end Lib
