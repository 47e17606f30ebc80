import CrosschainAgent.Crypto.EccSm2
import CrosschainAgent.Library.Buffered

/-!
# SM3

`sm3_update` counts the bytes, fills the block in the buffer up, processes whole blocks from the input and
keeps the rest, and `sm3_finish` feeds the padding and the length of the message through it. However a message
is cut into pieces, the digest is that of the whole message, and it is the fold of `sm3_process` over the
padded message. The two halves of the counter are `unsigned long`s and so are the words of the state; these
only ever hold 32 bits. A shift count is taken modulo 32, as the machine does where the language leaves it
open.
-/

namespace CrosschainAgent

/-- `state` of `sm3_context`, under the names that `sm3_process` has for its words. -/
structure Sm3State where
  A : UInt32
  B : UInt32
  C : UInt32
  D : UInt32
  E : UInt32
  F : UInt32
  G : UInt32
  H : UInt32

/-- `sm3_context`, without the padding of the HMAC. -/
structure Sm3Context where
  total0 : UInt64
  total1 : UInt64
  state : Sm3State
  buffer : Bytes
  length_buffer : buffer.length = 64

namespace Sm3Context

/-- The state that `sm3_starts` sets. -/
def startState : Sm3State :=
  ⟨0x7380166F, 0x4914B2B9, 0x172442D7, 0xDA8A0600, 0xA96F30BC, 0x163138AA, 0xE38DEE4D, 0xB0FB0E4E⟩

/-- `sm3_starts`, which leaves the buffer as it is. -/
def sm3Starts (ctx : Sm3Context) : Sm3Context := { ctx with total0 := 0, total1 := 0, state := startState }

/-- `GET_ULONG_BE`. -/
def getUlongBe (b : Bytes) (i : ℕ) : UInt32 :=
  let byte (i : ℕ) : UInt32 := (b[i]?.getD 0).toUInt32
  byte i <<< 24 ||| byte (i + 1) <<< 16 ||| byte (i + 2) <<< 8 ||| byte (i + 3)

/-- `PUT_ULONG_BE`. -/
def putUlongBe (n : UInt32) : Bytes := [(n >>> 24).toUInt8, (n >>> 16).toUInt8, (n >>> 8).toUInt8, n.toUInt8]

def ff0 (x y z : UInt32) : UInt32 := x ^^^ y ^^^ z

def ff1 (x y z : UInt32) : UInt32 := x &&& y ||| x &&& z ||| y &&& z

def gg0 (x y z : UInt32) : UInt32 := x ^^^ y ^^^ z

def gg1 (x y z : UInt32) : UInt32 := x &&& y ||| ~~~x &&& z

def rotl (x n : UInt32) : UInt32 := x <<< n ||| x >>> (32 - n)

def p0 (x : UInt32) : UInt32 := x ^^^ rotl x 9 ^^^ rotl x 17

def p1 (x : UInt32) : UInt32 := x ^^^ rotl x 15 ^^^ rotl x 23

/-- `T[j]`. -/
def T (j : ℕ) : UInt32 := if j < 16 then 0x79CC4519 else 0x7A879D8A

/-- `W[j]` from the words in front of it. -/
def expandedWord (W : Array UInt32) (j : ℕ) : UInt32 :=
  let W (i : ℕ) : UInt32 := W[i]?.getD 0
  let Temp1 := W (j - 16) ^^^ W (j - 9)
  let Temp2 := rotl (W (j - 3)) 15
  let Temp3 := Temp1 ^^^ Temp2
  let Temp4 := p1 Temp3
  let Temp5 := rotl (W (j - 13)) 7 ^^^ W (j - 6)
  Temp4 ^^^ Temp5

/-- `W`: the words of a block, and 52 more. -/
def expandedWords (data : Bytes) : Array UInt32 :=
  (List.range' 16 52).foldl (fun W j => W.push (expandedWord W j))
    ((List.range 16).map fun i => getUlongBe data (4 * i)).toArray

/-- One round; the rounds from 16 on are a second loop, with `FF1` and `GG1`. -/
def round (W : Array UInt32) (s : Sm3State) (j : ℕ) : Sm3State :=
  let W (i : ℕ) : UInt32 := W[i]?.getD 0
  let W1 (j : ℕ) : UInt32 := W j ^^^ W (j + 4)
  let SS1 := rotl (rotl s.A 12 + s.E + rotl (T j) (UInt32.ofNat j)) 7
  let SS2 := SS1 ^^^ rotl s.A 12
  let TT1 := (if j < 16 then ff0 s.A s.B s.C else ff1 s.A s.B s.C) + s.D + SS2 + W1 j
  let TT2 := (if j < 16 then gg0 s.E s.F s.G else gg1 s.E s.F s.G) + s.H + SS1 + W j
  ⟨TT1, s.A, rotl s.B 9, s.C, p0 TT2, s.E, rotl s.F 19, s.G⟩

/-- `sm3_process`. -/
def sm3Process (state : Sm3State) (data : Bytes) : Sm3State :=
  let s := (List.range 64).foldl (round (expandedWords data)) state
  ⟨state.A ^^^ s.A, state.B ^^^ s.B, state.C ^^^ s.C, state.D ^^^ s.D,
    state.E ^^^ s.E, state.F ^^^ s.F, state.G ^^^ s.G, state.H ^^^ s.H⟩

/-- `total[0] & 0x3F`. -/
def left (ctx : Sm3Context) : ℕ := (ctx.total0 &&& 0x3F).toNat

/-- The last six bits of the counter are its remainder. -/
theorem left_eq (ctx : Sm3Context) : ctx.left = ctx.total0.toNat % 64 := by
  rw [left, UInt64.toNat_and]
  exact Nat.and_two_pow_sub_one_eq_mod ctx.total0.toNat 6

/-- What is left over is less than a block. -/
theorem left_lt (ctx : Sm3Context) : ctx.left < 64 := by
  rw [left_eq]
  exact Nat.mod_lt _ (by omega)

/-- `sm3_update`, of an input of at least `ilen` bytes. -/
def sm3Update (ctx : Sm3Context) (input : Bytes) (ilen : ℤ) : Sm3Context :=
  if ilen ≤ 0 then ctx
  else
    let total0 := (ctx.total0 + UInt64.ofNat ilen.toNat) &&& 0xFFFFFFFF
    let total1 := if total0 < UInt64.ofNat ilen.toNat then ctx.total1 + 1 else ctx.total1
    let updated := Buffered.update 64 sm3Process ctx.state ctx.buffer ctx.left (input.take ilen.toNat)
    { total0 := total0
      total1 := total1
      state := updated.1
      buffer := updated.2
      length_buffer := Buffered.length_update (by omega) ctx.left_lt ctx.length_buffer _ _ }

/-- `sm3_padding`. -/
def sm3Padding : Bytes := 0x80 :: List.replicate 63 0

/-- `sm3_finish`: the context afterwards, and the digest. -/
def sm3Finish (ctx : Sm3Context) : Sm3Context × Bytes :=
  let high := (ctx.total0 >>> 29 ||| ctx.total1 <<< 3).toUInt32
  let low := (ctx.total0 <<< 3).toUInt32
  let msglen := putUlongBe high ++ putUlongBe low
  let last := ctx.left
  let padn := if last < 56 then 56 - last else 120 - last
  let ctx := ctx.sm3Update sm3Padding padn
  let ctx := ctx.sm3Update msglen 8
  (ctx, putUlongBe ctx.state.A ++ putUlongBe ctx.state.B ++ putUlongBe ctx.state.C ++
    putUlongBe ctx.state.D ++ putUlongBe ctx.state.E ++ putUlongBe ctx.state.F ++
    putUlongBe ctx.state.G ++ putUlongBe ctx.state.H)

/-- `Update`: the size of the string is passed as an `int`. -/
def update (ctx : Sm3Context) (input : Bytes) : Sm3Context :=
  ctx.sm3Update input (Int32.ofNat input.length).toInt

/-- `Final`. -/
def final (ctx : Sm3Context) : Bytes := ctx.sm3Finish.2

/-- `Crypto`, on a context that is not set before. -/
def crypto (sm3 : Sm3Context) (input : Bytes) : Bytes := (sm3.sm3Starts.update input).final

/-- The context after a message: the counter holds its length, and the state and the buffer hold its blocks. -/
structure Absorbed (seen : Bytes) (ctx : Sm3Context) : Prop where
  total0 : ctx.total0.toNat = seen.length % 2 ^ 32
  total1 : ctx.total1.toNat = seen.length / 2 ^ 32 % 2 ^ 64
  held : Buffered.Holds 64 sm3Process startState seen ctx.state ctx.buffer

/-- The context after `sm3_starts`, whatever was in it. -/
theorem absorbed_starts (ctx : Sm3Context) : Absorbed [] ctx.sm3Starts where
  total0 := rfl
  total1 := rfl
  held := Buffered.holds_start (by omega) startState ctx.length_buffer

/-- What the counter says of the buffer. -/
theorem Absorbed.left {seen : Bytes} {ctx : Sm3Context} (h : Absorbed seen ctx) :
    ctx.left = seen.length % 64 := by
  rw [left_eq, h.total0]
  omega

/-- `sm3_update` adds the bytes it reads to the message. -/
theorem Absorbed.sm3Update {seen : Bytes} {ctx : Sm3Context} (h : Absorbed seen ctx) (input : Bytes) (ilen : ℤ)
    (hlength : ilen ≤ input.length) (hlt : ilen < 2 ^ 31) :
    Absorbed (seen ++ input.take ilen.toNat) (ctx.sm3Update input ilen) := by
  rw [Sm3Context.sm3Update]
  split
  next hle =>
    rw [Int.toNat_of_nonpos hle, List.take_zero, List.append_nil]
    exact h
  next hpos =>
    have htake : (input.take ilen.toNat).length = ilen.toNat := List.length_take_of_le (by omega)
    have hilen : (UInt64.ofNat ilen.toNat).toNat = ilen.toNat := by
      rw [UInt64.toNat_ofNat']
      omega
    have hmask : (ctx.total0 + UInt64.ofNat ilen.toNat &&& 0xFFFFFFFF).toNat =
        (ctx.total0.toNat + ilen.toNat) % 2 ^ 64 % 2 ^ 32 := by
      rw [UInt64.toNat_and, UInt64.toNat_add, hilen]
      exact Nat.and_two_pow_sub_one_eq_mod _ 32
    refine ⟨?_, ?_, ?_⟩
    · dsimp only
      rw [hmask, h.total0, List.length_append, htake]
      omega
    · -- the low half has wrapped around if and only if it is smaller than what was added
      have hwrap : ((ctx.total0 + UInt64.ofNat ilen.toNat) &&& 0xFFFFFFFF < UInt64.ofNat ilen.toNat) ↔
          2 ^ 32 ≤ seen.length % 2 ^ 32 + ilen.toNat := by
        rw [UInt64.lt_iff_toNat_lt, hmask, hilen, h.total0]
        omega
      dsimp only
      rw [apply_ite UInt64.toNat, UInt64.toNat_add, h.total1, List.length_append, htake]
      simp only [hwrap]
      split
      · rw [UInt64.toNat_one]
        omega
      · omega
    · dsimp only
      rw [h.left]
      exact h.held.update (by omega) _

/-- The whole of an input is read. -/
theorem Absorbed.sm3Update_length {seen : Bytes} {ctx : Sm3Context} (h : Absorbed seen ctx) {input : Bytes}
    (hlength : input.length < 2 ^ 31) : Absorbed (seen ++ input) (ctx.sm3Update input input.length) := by
  have hupdate := h.sm3Update input input.length le_rfl (by omega)
  rwa [Int.toNat_natCast, List.take_length] at hupdate

/-- `Update` adds a string to the message. -/
theorem Absorbed.update {seen : Bytes} {ctx : Sm3Context} (h : Absorbed seen ctx) {input : Bytes}
    (hlength : input.length < 2 ^ 31) : Absorbed (seen ++ input) (ctx.update input) := by
  have hint : (Int32.ofNat input.length).toInt = input.length := Int32.toInt_ofNat_of_lt hlength
  rw [Sm3Context.update, hint]
  exact h.sm3Update_length hlength

/-- The message that the calls of `Update` put together. -/
theorem absorbed_foldl {seen : Bytes} {ctx : Sm3Context} (h : Absorbed seen ctx) {chunks : List Bytes}
    (hlength : chunks.flatten.length < 2 ^ 31) :
    Absorbed (seen ++ chunks.flatten) (chunks.foldl Sm3Context.update ctx) := by
  induction chunks generalizing seen ctx with
  | nil => simpa using h
  | cons chunk chunks ih =>
    rw [List.flatten_cons, List.length_append] at hlength
    rw [List.flatten_cons, ← List.append_assoc, List.foldl_cons]
    exact ih (h.update (by omega)) (by omega)

/-- A number as eight big-endian bytes. -/
def bigEndian (n : ℕ) : Bytes := (List.range 8).map fun i => UInt8.ofNat (n / 256 ^ (7 - i))

/-- A length is written in eight bytes. -/
theorem length_bigEndian (n : ℕ) : (bigEndian n).length = 8 := by rw [bigEndian, List.length_map, List.length_range]

/-- A message with its padding: the byte 0x80, as few zeros as fill a block up together with what follows, and
the length in bits. -/
def padded (message : Bytes) : Bytes :=
  message ++ 0x80 :: List.replicate ((119 - message.length % 64) % 64) 0 ++ bigEndian (8 * message.length)

/-- The digest of a message: the fold of `sm3_process` over its padded blocks. -/
def digest (message : Bytes) : Bytes :=
  let state := (Buffered.absorb 64 sm3Process startState (padded message)).1
  putUlongBe state.A ++ putUlongBe state.B ++ putUlongBe state.C ++ putUlongBe state.D ++
    putUlongBe state.E ++ putUlongBe state.F ++ putUlongBe state.G ++ putUlongBe state.H

/-- A padded message is whole blocks. -/
theorem dvd_length_padded (message : Bytes) : 64 ∣ (padded message).length := by
  rw [padded, List.length_append, List.length_append, List.length_cons, List.length_replicate, length_bigEndian]
  omega

/-- The bytes of a word, from the highest on. -/
theorem putUlongBe_eq (n : UInt32) :
    putUlongBe n = (List.range 4).map fun i => UInt8.ofNat (n.toNat / 256 ^ (3 - i)) := by
  simp only [putUlongBe, List.range_succ, List.range_zero, List.nil_append, List.cons_append, List.map_cons,
    List.map_nil, List.cons.injEq, and_true, ← UInt8.toNat_inj, UInt8.toNat_ofNat', UInt32.toNat_toUInt8,
    UInt32.toNat_shiftRight, UInt32.reduceToNat, Nat.reduceMod, Nat.shiftRight_eq_div_pow]
  omega

/-- The length in bits that `sm3_finish` writes. -/
theorem msglen_eq {total0 total1 : UInt64} {length : ℕ} (hlength : length < 2 ^ 31)
    (htotal0 : total0.toNat = length) (htotal1 : total1 = 0) :
    putUlongBe (total0 >>> 29 ||| total1 <<< 3).toUInt32 ++ putUlongBe (total0 <<< 3).toUInt32 =
      bigEndian (8 * length) := by
  have hlow : (total0 <<< 3).toUInt32.toNat = 8 * length % 2 ^ 32 := by
    rw [UInt64.toNat_toUInt32, UInt64.toNat_shiftLeft, htotal0]
    simp only [UInt64.reduceToNat, Nat.reduceMod, Nat.shiftLeft_eq]
    omega
  have hhigh : (total0 >>> 29 ||| total1 <<< 3).toUInt32.toNat = 8 * length / 2 ^ 32 := by
    rw [htotal1, UInt64.zero_shiftLeft, UInt64.or_zero, UInt64.toNat_toUInt32, UInt64.toNat_shiftRight, htotal0]
    simp only [UInt64.reduceToNat, Nat.reduceMod, Nat.shiftRight_eq_div_pow]
    omega
  have hhalves : 8 * length = 2 ^ 32 * (8 * length / 2 ^ 32) + 8 * length % 2 ^ 32 :=
    (Nat.div_add_mod _ _).symm
  rw [putUlongBe_eq, putUlongBe_eq, hhigh, hlow, bigEndian]
  simp only [List.range_succ, List.range_zero, List.nil_append, List.cons_append, List.map_cons, List.map_nil,
    List.cons.injEq, and_true, ← UInt8.toNat_inj, UInt8.toNat_ofNat']
  omega

/-- The first bytes of `sm3_padding` fill a block up, all but the eight for the length. -/
theorem Absorbed.padding {message : Bytes} {ctx : Sm3Context} (h : Absorbed message ctx) :
    Absorbed (message ++ 0x80 :: List.replicate ((119 - message.length % 64) % 64) 0)
      (ctx.sm3Update sm3Padding ((if ctx.left < 56 then 56 - ctx.left else 120 - ctx.left : ℕ) : ℤ)) := by
  have hpadn : (if ctx.left < 56 then 56 - ctx.left else 120 - ctx.left) =
      (119 - message.length % 64) % 64 + 1 := by
    rw [h.left]
    split <;> omega
  have htake : sm3Padding.take ((119 - message.length % 64) % 64 + 1) =
      0x80 :: List.replicate ((119 - message.length % 64) % 64) 0 := by
    rw [sm3Padding, List.take_succ_cons, List.take_replicate, Nat.min_eq_left (by omega)]
  have hlength : sm3Padding.length = 64 := rfl
  have hupdate := h.sm3Update sm3Padding (((119 - message.length % 64) % 64 + 1 : ℕ) : ℤ) (by omega) (by omega)
  rwa [Int.toNat_natCast, htake, ← hpadn] at hupdate

/-- `Final` returns the digest of the message. -/
theorem Absorbed.final {message : Bytes} {ctx : Sm3Context} (h : Absorbed message ctx)
    (hlength : message.length < 2 ^ 31) : ctx.final = digest message := by
  have htotal1 : ctx.total1 = 0 := by
    rw [← UInt64.toNat_inj, h.total1, Nat.div_eq_of_lt (by omega)]
    rfl
  have hmsglen := msglen_eq hlength (h.total0.trans (Nat.mod_eq_of_lt (by omega))) htotal1
  have hfinished : Absorbed (padded message) ctx.sm3Finish.1 := by
    have hlength : (bigEndian (8 * message.length)).length < 2 ^ 31 := by
      rw [length_bigEndian]
      omega
    rw [← hmsglen] at hlength
    rw [padded, ← hmsglen]
    exact h.padding.sm3Update_length hlength
  rw [Sm3Context.final, digest, ← hfinished.held.state]
  rfl

/-- However a message below 2 ^ 31 bytes is cut into pieces, what `Update` and `Final` make of it is what `Crypto`
makes of the whole of it, and that is the fold of `sm3_process` over the padded message, which is whole
blocks. -/
theorem incremental_eq_oneShot (ctx sm3 : Sm3Context) (chunks : List Bytes)
    (hlength : chunks.flatten.length < 2 ^ 31) :
    (chunks.foldl update ctx.sm3Starts).final = sm3.crypto chunks.flatten ∧
      sm3.crypto chunks.flatten = digest chunks.flatten ∧ 64 ∣ (padded chunks.flatten).length := by
  have hpieces := (absorbed_foldl ctx.absorbed_starts hlength).final hlength
  have hwhole := (sm3.absorbed_starts.update hlength).final hlength
  exact ⟨hpieces.trans hwhole.symm, hwhole, dvd_length_padded _⟩

/-- A context with nothing in it. -/
def blank : Sm3Context := ⟨0, 0, startState, List.replicate 64 0, List.length_replicate⟩

/-- "abc" comes in three pieces, one of them empty. -/
theorem incremental_eq_oneShot_abc :
    ([[0x61], [], [0x62, 0x63]].foldl update blank.sm3Starts).final = blank.crypto [0x61, 0x62, 0x63] ∧
      blank.crypto [0x61, 0x62, 0x63] = digest [0x61, 0x62, 0x63] ∧ 64 ∣ (padded [0x61, 0x62, 0x63]).length :=
  incremental_eq_oneShot blank blank [[0x61], [], [0x62, 0x63]] (by decide)

example : (blank.crypto [0x61, 0x62, 0x63]).take 4 = [0x66, 0xc7, 0xf0, 0xf4] := by decide +kernel

/-- `Sm3::Crypto` returns 32 bytes, which is all that the signatures ask of it. -/
theorem length_crypto (sm3 : Sm3Context) (input : Bytes) : (sm3.crypto input).length = 32 := rfl

end Sm3Context

end CrosschainAgent
