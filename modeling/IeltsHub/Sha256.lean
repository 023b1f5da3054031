import IeltsHub.Md5

set_option autoImplicit false

/-!
# SHA-256

`hashlib.sha256(raw).hexdigest()`: blocks of sixteen big-endian words, each stretched to sixty-four
and mixed into the eight words of the state.
-/
namespace IeltsHub.Sha256
open PyUuid

abbrev Word := BitVec 32

structure State where
  a : Word
  b : Word
  c : Word
  d : Word
  e : Word
  f : Word
  g : Word
  h : Word

def start : State :=
  ⟨0x6a09e667, 0xbb67ae85, 0x3c6ef372, 0xa54ff53a, 0x510e527f, 0x9b05688c, 0x1f83d9ab, 0x5be0cd19⟩

def roots : List Word := [
  0x428a2f98, 0x71374491, 0xb5c0fbcf, 0xe9b5dba5, 0x3956c25b, 0x59f111f1, 0x923f82a4, 0xab1c5ed5,
  0xd807aa98, 0x12835b01, 0x243185be, 0x550c7dc3, 0x72be5d74, 0x80deb1fe, 0x9bdc06a7, 0xc19bf174,
  0xe49b69c1, 0xefbe4786, 0x0fc19dc6, 0x240ca1cc, 0x2de92c6f, 0x4a7484aa, 0x5cb0a9dc, 0x76f988da,
  0x983e5152, 0xa831c66d, 0xb00327c8, 0xbf597fc7, 0xc6e00bf3, 0xd5a79147, 0x06ca6351, 0x14292967,
  0x27b70a85, 0x2e1b2138, 0x4d2c6dfc, 0x53380d13, 0x650a7354, 0x766a0abb, 0x81c2c92e, 0x92722c85,
  0xa2bfe8a1, 0xa81a664b, 0xc24b8b70, 0xc76c51a3, 0xd192e819, 0xd6990624, 0xf40e3585, 0x106aa070,
  0x19a4c116, 0x1e376c08, 0x2748774c, 0x34b0bcb5, 0x391c0cb3, 0x4ed8aa4a, 0x5b9cca4f, 0x682e6ff3,
  0x748f82ee, 0x78a5636f, 0x84c87814, 0x8cc70208, 0x90befffa, 0xa4506ceb, 0xbef9a3f7, 0xc67178f2]

def nextWord (latest : List Word) : Word :=
  let w (k : ℕ) := latest.getD (k - 1) 0
  let s0 := (w 15).rotateRight 7 ^^^ (w 15).rotateRight 18 ^^^ w 15 >>> 3
  let s1 := (w 2).rotateRight 17 ^^^ (w 2).rotateRight 19 ^^^ w 2 >>> 10
  w 16 + s0 + w 7 + s1

def schedule (block : List Word) : List Word :=
  (List.range 48).foldl (fun latest _ => nextWord latest :: latest) block.reverse

def round (s : State) (k w : Word) : State :=
  let s1 := s.e.rotateRight 6 ^^^ s.e.rotateRight 11 ^^^ s.e.rotateRight 25
  let choice := (s.e &&& s.f) ^^^ (~~~s.e &&& s.g)
  let t1 := s.h + s1 + choice + k + w
  let s0 := s.a.rotateRight 2 ^^^ s.a.rotateRight 13 ^^^ s.a.rotateRight 22
  let majority := (s.a &&& s.b) ^^^ (s.a &&& s.c) ^^^ (s.b &&& s.c)
  ⟨t1 + (s0 + majority), s.a, s.b, s.c, s.d + t1, s.e, s.f, s.g⟩

def compress (s : State) (block : List Word) : State :=
  let t := (roots.zip (schedule block).reverse).foldl (fun t kw => round t kw.1 kw.2) s
  ⟨s.a + t.a, s.b + t.b, s.c + t.c, s.d + t.d, s.e + t.e, s.f + t.f, s.g + t.g, s.h + t.h⟩

/-- `count` bytes of a number, the highest first. -/
def bigEndian (n count : ℕ) : List UInt8 := (Md5.littleEndian n count).reverse

def pad (bs : List UInt8) : List UInt8 :=
  bs ++ 0x80 :: List.replicate ((119 - bs.length % 64) % 64) 0 ++ bigEndian (8 * bs.length) 8

def word (bs : List UInt8) : Word :=
  BitVec.ofNat 32 (bs.foldl (fun n b => 256 * n + b.toNat) 0)

def block (bs : List UInt8) (k : ℕ) : List Word :=
  (List.range 16).map (fun j => word ((bs.drop (64 * k + 4 * j)).take 4))

def digest (bs : List UInt8) : List UInt8 :=
  let padded := pad bs
  let s := (List.range (padded.length / 64)).foldl (fun s k => compress s (block padded k)) start
  [s.a, s.b, s.c, s.d, s.e, s.f, s.g, s.h].flatMap (fun w => bigEndian w.toNat 4)

def hexdigest (bs : List UInt8) : List Char := (digest bs).flatMap (fun b => hexText b.toNat 2)

example : hexdigest [0x61, 0x62, 0x63] =
    "ba7816bf8f01cfea414140de5dae2223b00361a396177a9cb410ff61f20015ad".toList := by
  decide +kernel

/-- `hashlib.sha256(raw.encode()).hexdigest()`. -/
def ofText (raw : String) : String := .ofList (hexdigest raw.toByteArray.data.toList)

def hexChar (c : Char) : Bool := "0123456789abcdef".toList.contains c

theorem hexChar_digitChar : ∀ d < 16, hexChar (Nat.digitChar d) = true := by decide

theorem hexChar_of_mem {raw : String} {c : Char} (h : c ∈ (ofText raw).toList) :
    hexChar c = true := by
  rw [ofText, String.toList_ofList, hexdigest, List.mem_flatMap] at h
  obtain ⟨b, _, h⟩ := h
  obtain ⟨i, _, rfl⟩ := List.mem_map.1 h
  exact hexChar_digitChar _ (Nat.mod_lt _ (by omega))

end IeltsHub.Sha256
