import Mathlib.Algebra.Ring.Nat
import Mathlib.Data.List.Nodup

/-! SHA-256 on byte strings, and the little-endian and hexadecimal forms in which programs pass
bytes around.  A development that only needs some property of the hash takes the hash as a
parameter; `sha256` is the function that the parameter stands for. -/

namespace GroundCore.Lib

/-- The bytes of a word, least significant first. -/
def leBytes (w : UInt64) : List UInt8 :=
  (List.range 8).map fun i => (w >>> (8 * i).toUInt64).toUInt8

/-- The word with the given bytes, least significant first. -/
def ofLeBytes (bytes : List UInt8) : UInt64 :=
  bytes.foldr (fun b w => (w <<< 8) ||| b.toUInt64) 0

@[simp] theorem length_leBytes (w : UInt64) : (leBytes w).length = 8 := by simp [leBytes]

/-- The bytes of a word tell it from others. -/
theorem leBytes_inj {v w : UInt64} : leBytes v = leBytes w ↔ v = w := by
  refine ⟨fun h => ?_, fun h => h ▸ rfl⟩
  have hbyte : ∀ i < 8, v.toNat / 2 ^ (8 * i) % 256 = w.toNat / 2 ^ (8 * i) % 256 := by
    intro i hi
    have hget := congrArg (fun bytes => (bytes.getD i 0).toNat) h
    simp only [leBytes, List.getD_eq_getElem?_getD, List.getElem?_map,
      List.getElem?_range hi, Option.map_some, Option.getD_some, UInt64.toNat_toUInt8,
      UInt64.toNat_shiftRight, Nat.shiftRight_eq_div_pow] at hget
    have hshift : (8 * i).toUInt64.toNat % 64 = 8 * i := by
      simp only [Nat.toUInt64_eq, UInt64.toNat_ofNat']
      omega
    simpa only [hshift] using hget
  have hv := v.toNat_lt
  have hw := w.toNat_lt
  have h0 := hbyte 0 (by decide)
  have h1 := hbyte 1 (by decide)
  have h2 := hbyte 2 (by decide)
  have h3 := hbyte 3 (by decide)
  have h4 := hbyte 4 (by decide)
  have h5 := hbyte 5 (by decide)
  have h6 := hbyte 6 (by decide)
  have h7 := hbyte 7 (by decide)
  exact UInt64.toNat_inj.mp (by omega)
theorem append_leBytes_inj {s t : List UInt8} {v w : UInt64} :
    s ++ leBytes v = t ++ leBytes w ↔ s = t ∧ v = w := by
  refine ⟨fun h => ?_, fun ⟨hs, hw⟩ => by rw [hs, hw]⟩
  obtain ⟨hs, hw⟩ := List.append_inj' h (by rw [length_leBytes, length_leBytes])
  exact ⟨hs, leBytes_inj.mp hw⟩

def hexDigit (n : Nat) : Char := (Nat.digitChar (n % 16))

/-- Two lower-case hexadecimal digits for each byte. -/
def hexLower (bytes : List UInt8) : String :=
  String.ofList (bytes.flatMap fun b => [hexDigit (b.toNat / 16), hexDigit b.toNat])

theorem hexDigit_inj {m n : Nat} (h : hexDigit m = hexDigit n) : m % 16 = n % 16 := by
  have hdigits : ∀ i j : Fin 16, Nat.digitChar i = Nat.digitChar j → i = j := by decide
  have heq := hdigits ⟨m % 16, Nat.mod_lt _ (by omega)⟩ ⟨n % 16, Nat.mod_lt _ (by omega)⟩ h
  exact congrArg Fin.val heq

theorem hexLower_inj {first second : List UInt8} :
    hexLower first = hexLower second ↔ first = second := by
  refine ⟨fun h => ?_, fun h => h ▸ rfl⟩
  have hlist := String.ofList_injective h
  clear h
  induction first generalizing second with
  | nil =>
    cases second with
    | nil => rfl
    | cons c second => simp at hlist
  | cons b first ih =>
    cases second with
    | nil => simp at hlist
    | cons c second =>
      simp only [List.flatMap_cons, List.cons_append, List.nil_append, List.cons.injEq] at hlist
      obtain ⟨hhigh, hlow, hrest⟩ := hlist
      have hhigh := hexDigit_inj hhigh
      have hlow := hexDigit_inj hlow
      have hb := b.toNat_lt
      have hc := c.toNat_lt
      have hbyte : b = c := UInt8.toNat_inj.mp (by omega)
      rw [hbyte, ih hrest]

theorem byteArray_toList_loop (bytes : ByteArray) (i : ℕ) (read : List UInt8) :
    ByteArray.toList.loop bytes i read = read.reverse ++ bytes.data.toList.drop i := by
  fun_induction ByteArray.toList.loop bytes i read with
  | case1 i read hlt ih =>
    rw [ih, List.drop_eq_getElem_cons (l := bytes.data.toList) (i := i) (by simpa using hlt)]
    simp [ByteArray.get!, hlt]
  | case2 i read hge =>
    rw [List.drop_eq_nil_of_le (by simpa using hge), List.append_nil]

/-- The bytes of a text tell it from others. -/
theorem toUTF8_toList_inj {s t : String} : s.toUTF8.toList = t.toUTF8.toList ↔ s = t := by
  have hdata : ∀ bytes : ByteArray, bytes.toList = bytes.data.toList :=
    fun bytes => byteArray_toList_loop bytes 0 []
  rw [hdata, hdata, String.toUTF8_eq_toByteArray, String.toUTF8_eq_toByteArray,
    ← String.toByteArray_inj, Array.toList_inj, ByteArray.ext_iff]

/-- The bytes that pairs of hexadecimal digits stand for, in either case. -/
def hexDecodePairs : List Char → Except String (List UInt8)
  | [] => .ok []
  | [_] => .error "Odd number of digits"
  | high :: low :: rest => do
    let some h := "0123456789abcdef".toList.idxOf? high.toLower | .error "Invalid character"
    let some l := "0123456789abcdef".toList.idxOf? low.toLower | .error "Invalid character"
    return UInt8.ofNat (16 * h + l) :: (← hexDecodePairs rest)

theorem idxOf_hexDigit (n : Nat) :
    "0123456789abcdef".toList.idxOf? (hexDigit n).toLower = some (n % 16) := by
  have hdigits : ∀ i : Fin 16,
      "0123456789abcdef".toList.idxOf? (Nat.digitChar i).toLower = some i.val := by decide
  exact hdigits ⟨n % 16, Nat.mod_lt _ (by omega)⟩

/-- Bytes are read back from their digits. -/
theorem hexDecodePairs_hexLower (bytes : List UInt8) :
    hexDecodePairs (hexLower bytes).toList = .ok bytes := by
  rw [hexLower, String.toList_ofList]
  induction bytes with
  | nil => rfl
  | cons b bytes ih =>
    have hb := b.toNat_lt
    have hbyte : UInt8.ofNat (16 * (b.toNat / 16 % 16) + b.toNat % 16) = b := by
      rw [show 16 * (b.toNat / 16 % 16) + b.toNat % 16 = b.toNat by omega, UInt8.ofNat_toNat]
    simp only [List.flatMap_cons, List.cons_append, List.nil_append, hexDecodePairs,
      idxOf_hexDigit, ih]
    rw [hbyte]
    rfl

namespace Sha256

/-- The first 32 bits of the fractional parts of the cube roots of the first 64 primes. -/
def roundConstants : List UInt32 :=
  [0x428a2f98, 0x71374491, 0xb5c0fbcf, 0xe9b5dba5, 0x3956c25b, 0x59f111f1, 0x923f82a4, 0xab1c5ed5,
   0xd807aa98, 0x12835b01, 0x243185be, 0x550c7dc3, 0x72be5d74, 0x80deb1fe, 0x9bdc06a7, 0xc19bf174,
   0xe49b69c1, 0xefbe4786, 0x0fc19dc6, 0x240ca1cc, 0x2de92c6f, 0x4a7484aa, 0x5cb0a9dc, 0x76f988da,
   0x983e5152, 0xa831c66d, 0xb00327c8, 0xbf597fc7, 0xc6e00bf3, 0xd5a79147, 0x06ca6351, 0x14292967,
   0x27b70a85, 0x2e1b2138, 0x4d2c6dfc, 0x53380d13, 0x650a7354, 0x766a0abb, 0x81c2c92e, 0x92722c85,
   0xa2bfe8a1, 0xa81a664b, 0xc24b8b70, 0xc76c51a3, 0xd192e819, 0xd6990624, 0xf40e3585, 0x106aa070,
   0x19a4c116, 0x1e376c08, 0x2748774c, 0x34b0bcb5, 0x391c0cb3, 0x4ed8aa4a, 0x5b9cca4f, 0x682e6ff3,
   0x748f82ee, 0x78a5636f, 0x84c87814, 0x8cc70208, 0x90befffa, 0xa4506ceb, 0xbef9a3f7, 0xc67178f2]

structure Words where
  (a b c d e f g h : UInt32)

def initial : Words :=
  ⟨0x6a09e667, 0xbb67ae85, 0x3c6ef372, 0xa54ff53a, 0x510e527f, 0x9b05688c, 0x1f83d9ab, 0x5be0cd19⟩

def rotr (x : UInt32) (n : UInt32) : UInt32 := (x >>> n) ||| (x <<< (32 - n))

def round (s : Words) (k w : UInt32) : Words :=
  let s1 := rotr s.e 6 ^^^ rotr s.e 11 ^^^ rotr s.e 25
  let ch := (s.e &&& s.f) ^^^ (~~~ s.e &&& s.g)
  let t1 := s.h + s1 + ch + k + w
  let s0 := rotr s.a 2 ^^^ rotr s.a 13 ^^^ rotr s.a 22
  let maj := (s.a &&& s.b) ^^^ (s.a &&& s.c) ^^^ (s.b &&& s.c)
  ⟨t1 + (s0 + maj), s.a, s.b, s.c, s.d + t1, s.e, s.f, s.g⟩

/-- The next word of the message schedule, from the last sixteen with the latest first. -/
def nextWord (ws : List UInt32) : UInt32 :=
  let w15 := ws.getD 14 0
  let w2 := ws.getD 1 0
  let s0 := rotr w15 7 ^^^ rotr w15 18 ^^^ (w15 >>> 3)
  let s1 := rotr w2 17 ^^^ rotr w2 19 ^^^ (w2 >>> 10)
  ws.getD 15 0 + s0 + ws.getD 6 0 + s1

def schedule (block : List UInt32) : List UInt32 :=
  ((List.range 48).foldl (fun ws _ => nextWord ws :: ws) block.reverse).reverse

def compress (s : Words) (block : List UInt32) : Words :=
  let t := (roundConstants.zip (schedule block)).foldl (fun t kw => round t kw.1 kw.2) s
  ⟨s.a + t.a, s.b + t.b, s.c + t.c, s.d + t.d, s.e + t.e, s.f + t.f, s.g + t.g, s.h + t.h⟩

def beBytes (n count : Nat) : List UInt8 :=
  (List.range count).map fun i => UInt8.ofNat (n / 256 ^ (count - 1 - i))

def pad (message : List UInt8) : List UInt8 :=
  message ++ [0x80] ++ List.replicate ((119 - message.length % 64) % 64) 0 ++
    beBytes (8 * message.length) 8

def words (bytes : List UInt8) : List UInt32 :=
  (bytes.toChunks 4).map fun chunk => chunk.foldl (fun w b => (w <<< 8) ||| b.toUInt32) 0

end Sha256

open Sha256 in
def sha256 (message : List UInt8) : List UInt8 :=
  let s := ((words (pad message)).toChunks 16).foldl compress initial
  [s.a, s.b, s.c, s.d, s.e, s.f, s.g, s.h].flatMap fun w => beBytes w.toNat 4

@[simp] theorem length_sha256 (message : List UInt8) : (sha256 message).length = 32 := rfl

/-- The hash of the given messages, and strings of other lengths for what is none of them. -/
def sha256On (messages : List (List UInt8)) (data : List UInt8) : List UInt8 :=
  if data ∈ messages then sha256 data else List.replicate 33 0 ++ data

theorem sha256On_injective {messages : List (List UInt8)} (h : (messages.map sha256).Nodup) :
    Function.Injective (sha256On messages) := by
  intro x y heq
  unfold sha256On at heq
  split at heq <;> split at heq
  · next hx hy => exact List.inj_on_of_nodup_map h hx hy heq
  · have := congrArg List.length heq
    simp only [length_sha256, List.length_append, List.length_replicate] at this
    omega
  · have := congrArg List.length heq
    simp only [length_sha256, List.length_append, List.length_replicate] at this
    omega
  · exact List.append_cancel_left heq

end GroundCore.Lib
