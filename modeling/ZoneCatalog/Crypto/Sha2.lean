import ZoneCatalog.Bytes.Basic

/-! The SHA-2 hash functions. They share one shape over words of 32 and of 64 bits and differ in the
words' rotations, the round constants and the initial state. -/
namespace ZoneCatalog.Sha2

/-- What the functions need of their words. -/
class Word (w : Type) extends Add w, AndOp w, XorOp w, Complement w where
  size : Nat
  ofNat : Nat → w
  toNat : w → Nat
  rotate : w → w → w
  shift : w → w → w

instance : Word UInt32 where
  size := 4
  ofNat := UInt32.ofNat
  toNat := UInt32.toNat
  rotate x n := (x >>> n) ||| (x <<< (32 - n))
  shift x n := x >>> n

instance : Word UInt64 where
  size := 8
  ofNat := UInt64.ofNat
  toNat := UInt64.toNat
  rotate x n := (x >>> n) ||| (x <<< (64 - n))
  shift x n := x >>> n

/-- A function of the family. The four triples are the amounts of its mixings; in the last two the
third amount is a shift. -/
structure Variant (w : Type) where
  constants : List w
  initial : List w
  big0 : w × w × w
  big1 : w × w × w
  small0 : w × w × w
  small1 : w × w × w
  digestSize : Nat

structure State (w : Type) where
  a : w
  b : w
  c : w
  d : w
  e : w
  f : w
  g : w
  h : w

variable {w : Type} [Word w]

namespace State

/-- The state of eight words; missing ones are zero. -/
def ofList (ws : List w) : State w :=
  let at_ := fun i => ws.getD i (Word.ofNat 0)
  ⟨at_ 0, at_ 1, at_ 2, at_ 3, at_ 4, at_ 5, at_ 6, at_ 7⟩

def toList (s : State w) : List w := [s.a, s.b, s.c, s.d, s.e, s.f, s.g, s.h]

def add (s t : State w) : State w :=
  ⟨s.a + t.a, s.b + t.b, s.c + t.c, s.d + t.d, s.e + t.e, s.f + t.f, s.g + t.g, s.h + t.h⟩

end State

/-- Three rotations of a word, joined. -/
@[specialize] def mixBig (amounts : w × w × w) (x : w) : w :=
  Word.rotate x amounts.1 ^^^ Word.rotate x amounts.2.1 ^^^ Word.rotate x amounts.2.2

/-- Two rotations and a shift of a word, joined. -/
@[specialize] def mixSmall (amounts : w × w × w) (x : w) : w :=
  Word.rotate x amounts.1 ^^^ Word.rotate x amounts.2.1 ^^^ Word.shift x amounts.2.2

@[specialize] def round (v : Variant w) (s : State w) (constant word : w) : State w :=
  let choice := (s.e &&& s.f) ^^^ (~~~s.e &&& s.g)
  let majority := (s.a &&& s.b) ^^^ (s.a &&& s.c) ^^^ (s.b &&& s.c)
  let t1 := s.h + mixBig v.big1 s.e + choice + constant + word
  let t2 := mixBig v.big0 s.a + majority
  ⟨t1 + t2, s.a, s.b, s.c, s.d + t1, s.e, s.f, s.g⟩

/-- One round together with the schedule, of which the next sixteen words are kept. -/
@[specialize] def scheduledRound (v : Variant w) (p : State w × List w) (constant : w) :
    State w × List w :=
  let (s, window) := p
  match window with
  | [] => (s, [])
  | word :: rest =>
    let at_ := fun i => rest.getD i (Word.ofNat 0)
    let next := mixSmall v.small1 (at_ 13) + at_ 8 + mixSmall v.small0 (at_ 0) + word
    (round v s constant word, rest ++ [next])

/-- The first parts of a list, each of the given size. -/
def chunks {α : Type} (size : Nat) : (count : Nat) → List α → List (List α)
  | 0, _ => []
  | count + 1, xs => xs.take size :: chunks size count (xs.drop size)

/-- A message with its end marked and its length in bits appended, filling whole blocks. -/
def pad (wordSize : Nat) (message : Bytes) : Bytes :=
  let block := 16 * wordSize
  let zeros := (2 * block - 1 - 2 * wordSize - message.length % block) % block
  message ++ 0x80 :: List.replicate zeros 0 ++ Bytes.ofNatBE (2 * wordSize) (8 * message.length)

@[specialize] def compress (v : Variant w) (s : State w) (block : Bytes) : State w :=
  let words := (chunks (Word.size w) 16 block).map fun bytes => Word.ofNat (Bytes.toNatBE bytes)
  s.add (v.constants.foldl (scheduledRound v) (s, words)).1

@[specialize] def hash (v : Variant w) (message : Bytes) : Bytes :=
  let padded := pad (Word.size w) message
  let block := 16 * Word.size w
  let blocks := chunks block (padded.length / block) padded
  let s := blocks.foldl (compress v) (State.ofList v.initial)
  (s.toList.flatMap fun word => Bytes.ofNatBE (Word.size w) (Word.toNat word)).take v.digestSize

def constants32 : List UInt32 :=
  [0x428A2F98, 0x71374491, 0xB5C0FBCF, 0xE9B5DBA5, 0x3956C25B, 0x59F111F1, 0x923F82A4, 0xAB1C5ED5,
   0xD807AA98, 0x12835B01, 0x243185BE, 0x550C7DC3, 0x72BE5D74, 0x80DEB1FE, 0x9BDC06A7, 0xC19BF174,
   0xE49B69C1, 0xEFBE4786, 0x0FC19DC6, 0x240CA1CC, 0x2DE92C6F, 0x4A7484AA, 0x5CB0A9DC, 0x76F988DA,
   0x983E5152, 0xA831C66D, 0xB00327C8, 0xBF597FC7, 0xC6E00BF3, 0xD5A79147, 0x06CA6351, 0x14292967,
   0x27B70A85, 0x2E1B2138, 0x4D2C6DFC, 0x53380D13, 0x650A7354, 0x766A0ABB, 0x81C2C92E, 0x92722C85,
   0xA2BFE8A1, 0xA81A664B, 0xC24B8B70, 0xC76C51A3, 0xD192E819, 0xD6990624, 0xF40E3585, 0x106AA070,
   0x19A4C116, 0x1E376C08, 0x2748774C, 0x34B0BCB5, 0x391C0CB3, 0x4ED8AA4A, 0x5B9CCA4F, 0x682E6FF3,
   0x748F82EE, 0x78A5636F, 0x84C87814, 0x8CC70208, 0x90BEFFFA, 0xA4506CEB, 0xBEF9A3F7, 0xC67178F2]

def constants64 : List UInt64 :=
  [0x428A2F98D728AE22, 0x7137449123EF65CD, 0xB5C0FBCFEC4D3B2F, 0xE9B5DBA58189DBBC,
   0x3956C25BF348B538, 0x59F111F1B605D019, 0x923F82A4AF194F9B, 0xAB1C5ED5DA6D8118,
   0xD807AA98A3030242, 0x12835B0145706FBE, 0x243185BE4EE4B28C, 0x550C7DC3D5FFB4E2,
   0x72BE5D74F27B896F, 0x80DEB1FE3B1696B1, 0x9BDC06A725C71235, 0xC19BF174CF692694,
   0xE49B69C19EF14AD2, 0xEFBE4786384F25E3, 0x0FC19DC68B8CD5B5, 0x240CA1CC77AC9C65,
   0x2DE92C6F592B0275, 0x4A7484AA6EA6E483, 0x5CB0A9DCBD41FBD4, 0x76F988DA831153B5,
   0x983E5152EE66DFAB, 0xA831C66D2DB43210, 0xB00327C898FB213F, 0xBF597FC7BEEF0EE4,
   0xC6E00BF33DA88FC2, 0xD5A79147930AA725, 0x06CA6351E003826F, 0x142929670A0E6E70,
   0x27B70A8546D22FFC, 0x2E1B21385C26C926, 0x4D2C6DFC5AC42AED, 0x53380D139D95B3DF,
   0x650A73548BAF63DE, 0x766A0ABB3C77B2A8, 0x81C2C92E47EDAEE6, 0x92722C851482353B,
   0xA2BFE8A14CF10364, 0xA81A664BBC423001, 0xC24B8B70D0F89791, 0xC76C51A30654BE30,
   0xD192E819D6EF5218, 0xD69906245565A910, 0xF40E35855771202A, 0x106AA07032BBD1B8,
   0x19A4C116B8D2D0C8, 0x1E376C085141AB53, 0x2748774CDF8EEB99, 0x34B0BCB5E19B48A8,
   0x391C0CB3C5C95A63, 0x4ED8AA4AE3418ACB, 0x5B9CCA4F7763E373, 0x682E6FF3D6B2B8A3,
   0x748F82EE5DEFB2FC, 0x78A5636F43172F60, 0x84C87814A1F0AB72, 0x8CC702081A6439EC,
   0x90BEFFFA23631E28, 0xA4506CEBDE82BDE9, 0xBEF9A3F7B2C67915, 0xC67178F2E372532B,
   0xCA273ECEEA26619C, 0xD186B8C721C0C207, 0xEADA7DD6CDE0EB1E, 0xF57D4F7FEE6ED178,
   0x06F067AA72176FBA, 0x0A637DC5A2C898A6, 0x113F9804BEF90DAE, 0x1B710B35131C471B,
   0x28DB77F523047D84, 0x32CAAB7B40C72493, 0x3C9EBE0A15C9BEBC, 0x431D67C49C100D4C,
   0x4CC5D4BECB3E42B6, 0x597F299CFC657E2A, 0x5FCB6FAB3AD6FAEC, 0x6C44198C4A475817]

def sha256 : Variant UInt32 where
  constants := constants32
  initial :=
    [0x6A09E667, 0xBB67AE85, 0x3C6EF372, 0xA54FF53A, 0x510E527F, 0x9B05688C, 0x1F83D9AB, 0x5BE0CD19]
  big0 := (2, 13, 22)
  big1 := (6, 11, 25)
  small0 := (7, 18, 3)
  small1 := (17, 19, 10)
  digestSize := 32

def sha512 : Variant UInt64 where
  constants := constants64
  initial :=
    [0x6A09E667F3BCC908, 0xBB67AE8584CAA73B, 0x3C6EF372FE94F82B, 0xA54FF53A5F1D36F1,
     0x510E527FADE682D1, 0x9B05688C2B3E6C1F, 0x1F83D9ABFB41BD6B, 0x5BE0CD19137E2179]
  big0 := (28, 34, 39)
  big1 := (14, 18, 41)
  small0 := (1, 8, 7)
  small1 := (19, 61, 6)
  digestSize := 64

/-- SHA-384, which is SHA-512 from another initial state, cut short. -/
def sha384 : Variant UInt64 :=
  { sha512 with
    initial :=
    [0xCBBB9D5DC1059ED8, 0x629A292A367CD507, 0x9159015A3070DD17, 0x152FECD8F70E5939,
     0x67332667FFC00B31, 0x8EB44A8768581511, 0xDB0C2E0D64F98FA7, 0x47B5481DBEFA4FA4]
    digestSize := 48 }

end ZoneCatalog.Sha2
