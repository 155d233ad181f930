import Mathlib.Data.List.Basic

/-!
# The Go runtime, as the Sphinx core and the provider use it

The repository is written in Go.  Its functions return a value together with an
`error`, and a few of its statements can *panic* instead: indexing a slice out of
range and dereferencing a nil pointer.  The two kinds of abnormal end have different
consequences: an error is logged and ends one connection, while a panic in a connection
goroutine brings the whole provider down (`serve_isPanic_iff`), so the model keeps them
apart.  The runtime can also stop the process with a fatal error, which no `recover`
catches, when goroutines use a map at once.

## Main definitions

* `Bytes` — a Go byte slice; `nil` and the empty slice are both `[]`.
* `GoError`, `Go` — a call that returns a value, returns a non-nil `error`, panics, or
  stops the process with a fatal error.
* `Go.ofErr` — the result of a call that can fail but never panics.
* `goIndex`, `deref` — `s[i]` and `*p`, with Go's panics.
* `stringsRepeat`, `goSliceFrom` — `strings.Repeat` and `s[low:]`, with Go's panics.
* `xorKeyStream` — `cipher.Stream.XORKeyStream`: a byte string XORed with a keystream.
* `encodeRune`, `bytesOfString` — `utf8.EncodeRune` and `[]byte(s)`.
* `decodeRune`, `stringOfBytes?` — `utf8.DecodeRune` and `string(b)` on the bytes
  `utf8.Valid` accepts.

## Main results

* `Except.bind_eq_ok` — peeling one step off a successful computation.
* `xorKeyStream_xorKeyStream` — XORing with the same keystream twice is the identity.
* `xorKeyStream_zipWith_xor` — a difference `δ` XORed into the input comes out unchanged.
* `stringOfBytes?_eq_some_iff` — **bytes are valid UTF-8 exactly when they are the UTF-8 of
  a string, and then they decode to that string.**
-/

namespace Loopix

/-- A Go byte slice.  A `nil` slice and an empty one are the same value here, as they
are for `bytes.Equal` and for the protobuf encoding. -/
abbrev Bytes := List UInt8

/-- How a Go call ends when it does not return normally: with a non-nil `error`
carrying its message, with a runtime panic, or with a fatal error of the runtime. -/
inductive GoError where
  /-- The call returned a non-nil `error`. -/
  | error (msg : String)
  /-- The call panicked. -/
  | panic (msg : String)
  /-- The runtime stopped the process (`fatal` in its sources). -/
  | fatal (msg : String)
  deriving DecidableEq, Repr

/-- A Go call returning an `α`: it succeeds, returns an error, or panics. -/
abbrev Go (α : Type) := Except GoError α

/-- The `(value, error)` result of a call that can fail but never panics. -/
def Go.ofErr {α : Type} : Except String α → Go α
  | .ok a => .ok a
  | .error e => .error (.error e)

/-- The call panicked. -/
def Go.isPanic {α : Type} : Go α → Bool
  | .error (.panic _) => true
  | _ => false

/-- `s[i]`: out of range panics. -/
def goIndex {α : Type} (s : List α) (i : ℕ) : Go α :=
  match s[i]? with
  | some a => .ok a
  | none => .error (.panic "runtime error: index out of range")

/-- `*p`: a nil pointer panics. -/
def deref {α : Type} : Option α → Go α
  | some a => .ok a
  | none => .error (.panic "runtime error: invalid memory address or nil pointer dereference")

/-- `strings.Repeat(string([]byte{b}), count)`: a negative count panics. -/
def stringsRepeat (b : UInt8) (count : ℤ) : Go Bytes :=
  if count < 0 then .error (.panic "strings: negative Repeat count")
  else .ok (List.replicate count.toNat b)

/-- `s[low:]`: a bound outside `0 ..= len(s)` panics. -/
def goSliceFrom (s : Bytes) (low : ℤ) : Go Bytes :=
  if 0 ≤ low ∧ low ≤ s.length then .ok (s.drop low.toNat)
  else .error (.panic "runtime error: slice bounds out of range")

@[simp] theorem stringsRepeat_natCast (b : UInt8) (n : ℕ) :
    stringsRepeat b n = .ok (List.replicate n b) := by
  simp [stringsRepeat, show ¬(n : ℤ) < 0 by omega]

theorem stringsRepeat_of_neg (b : UInt8) {count : ℤ} (h : count < 0) :
    stringsRepeat b count = .error (.panic "strings: negative Repeat count") := by
  simp [stringsRepeat, h]

@[simp] theorem goSliceFrom_append (s t : Bytes) :
    goSliceFrom (s ++ t) s.length = .ok t := by
  rw [goSliceFrom, if_pos (by simp only [List.length_append, Int.natCast_add]; omega)]
  simp

@[simp] theorem Go.ofErr_ok {α : Type} (a : α) : Go.ofErr (.ok a) = .ok a := rfl

@[simp] theorem Go.ofErr_error {α : Type} (e : String) :
    (Go.ofErr (.error e) : Go α) = .error (.error e) := rfl

theorem Go.ofErr_eq_ok {α : Type} {x : Except String α} {a : α} :
    Go.ofErr x = .ok a ↔ x = .ok a := by
  cases x <;> simp [Go.ofErr]

/-- A call lifted from `Except String` fails only with an error. -/
theorem Go.ofErr_eq_error {α : Type} {x : Except String α} {e : GoError}
    (h : Go.ofErr x = .error e) : ∃ msg, e = .error msg := by
  cases x with
  | ok => cases h
  | error msg =>
    cases h
    exact ⟨msg, rfl⟩

/-- A call lifted from `Except String` never panics. -/
@[simp] theorem Go.isPanic_ofErr {α : Type} (x : Except String α) :
    (Go.ofErr x).isPanic = false := by
  cases x <;> rfl

@[simp] theorem deref_some {α : Type} (a : α) : deref (some a) = .ok a := rfl

@[simp] theorem isPanic_deref {α : Type} (o : Option α) : (deref o).isPanic = o.isNone := by
  cases o <;> rfl

theorem goIndex_of_lt {α : Type} {s : List α} {i : ℕ} (h : i < s.length) :
    goIndex s i = .ok (s.get ⟨i, h⟩) := by
  simp [goIndex, List.getElem?_eq_getElem h]

theorem goIndex_of_le {α : Type} {s : List α} {i : ℕ} (h : s.length ≤ i) :
    goIndex s i = .error (.panic "runtime error: index out of range") := by
  simp [goIndex, List.getElem?_eq_none h]

/-! ### Peeling monadic code -/

@[simp] theorem Except.ok_bind {ε α β : Type} (a : α) (f : α → Except ε β) :
    (Except.ok a >>= f) = f a := rfl

@[simp] theorem Except.error_bind {ε α β : Type} (e : ε) (f : α → Except ε β) :
    (Except.error e >>= f) = Except.error e := rfl

/-- A computation `x >>= f` succeeds exactly when `x` does and `f` succeeds on its value. -/
theorem Except.bind_eq_ok {ε α β : Type} {x : Except ε α} {f : α → Except ε β} {b : β} :
    (x >>= f) = .ok b ↔ ∃ a, x = .ok a ∧ f a = .ok b := by
  cases x <;> simp

/-- A computation `x >>= f` that panics: `x` panicked, or `f` did. -/
theorem Except.bind_eq_error {ε α β : Type} {x : Except ε α} {f : α → Except ε β}
    {e : ε} :
    (x >>= f) = .error e ↔ x = .error e ∨ ∃ a, x = .ok a ∧ f a = .error e := by
  cases x <;> simp

/-- A computation `x >>= f` panics only where `x` or `f` does. -/
theorem Go.isPanic_bind {α β : Type} {x : Go α} {f : α → Go β} (hx : x.isPanic = false)
    (hf : ∀ a, (f a).isPanic = false) : (x >>= f).isPanic = false := by
  cases x with
  | error e => cases e <;> exact hx
  | ok a => rw [Except.ok_bind]; exact hf a

/-- A computation `x >>= f` panics exactly when `x` does, or `x` succeeds and `f` panics
on its value. -/
theorem Go.isPanic_bind_eq_true {α β : Type} {x : Go α} {f : α → Go β} :
    (x >>= f).isPanic = true ↔
      x.isPanic = true ∨ ∃ a, x = .ok a ∧ (f a).isPanic = true := by
  cases x with
  | error e => cases e <;> simp [Go.isPanic]
  | ok a => simp [Go.isPanic]

/-! ### Stream ciphers

`cipher.Stream.XORKeyStream` XORs its input with a keystream, byte by byte, from the
stream's current position.  A keystream is a function from positions to bytes. -/

/-- The bytes of `src` XORed with the keystream `ks` from position `i` on. -/
def xorKeyStream (ks : ℕ → UInt8) : ℕ → Bytes → Bytes
  | _, [] => []
  | i, b :: bs => (b ^^^ ks i) :: xorKeyStream ks (i + 1) bs

@[simp] theorem xorKeyStream_nil (ks : ℕ → UInt8) (i : ℕ) : xorKeyStream ks i [] = [] := rfl

@[simp] theorem xorKeyStream_cons (ks : ℕ → UInt8) (i : ℕ) (b : UInt8) (bs : Bytes) :
    xorKeyStream ks i (b :: bs) = (b ^^^ ks i) :: xorKeyStream ks (i + 1) bs := rfl

@[simp] theorem length_xorKeyStream (ks : ℕ → UInt8) (i : ℕ) (bs : Bytes) :
    (xorKeyStream ks i bs).length = bs.length := by
  induction bs generalizing i <;> simp [*]

@[simp] theorem UInt8.xor_xor_cancel (a b : UInt8) : a ^^^ b ^^^ b = a := by
  obtain ⟨a⟩ := a
  obtain ⟨b⟩ := b
  show UInt8.mk (a ^^^ b ^^^ b) = UInt8.mk a
  rw [BitVec.xor_assoc, BitVec.xor_self, BitVec.xor_zero]

theorem UInt8.xor_right_comm (a b c : UInt8) : a ^^^ b ^^^ c = a ^^^ c ^^^ b := by
  obtain ⟨a⟩ := a
  obtain ⟨b⟩ := b
  obtain ⟨c⟩ := c
  show UInt8.mk (a ^^^ b ^^^ c) = UInt8.mk (a ^^^ c ^^^ b)
  rw [BitVec.xor_assoc, BitVec.xor_comm b, ← BitVec.xor_assoc]

@[simp] theorem UInt8.zero_xor (a : UInt8) : 0 ^^^ a = a := by
  obtain ⟨a⟩ := a
  show UInt8.mk (0#8 ^^^ a) = UInt8.mk a
  rw [BitVec.zero_xor]

/-- The keystream of an appended input goes on where the first part stopped. -/
theorem xorKeyStream_append (ks : ℕ → UInt8) (i : ℕ) (as bs : Bytes) :
    xorKeyStream ks i (as ++ bs) = xorKeyStream ks i as ++ xorKeyStream ks (i + as.length) bs := by
  induction as generalizing i with
  | nil => rfl
  | cons a as ih => simp [ih, Nat.add_assoc, Nat.add_comm 1]

/-- Byte `j` of the output is byte `j` of the input XORed with keystream byte `i + j`. -/
theorem getElem?_xorKeyStream (ks : ℕ → UInt8) (i : ℕ) (bs : Bytes) (j : ℕ) :
    (xorKeyStream ks i bs)[j]? = bs[j]?.map (· ^^^ ks (i + j)) := by
  induction bs generalizing i j with
  | nil => rfl
  | cons b bs ih =>
    cases j with
    | zero => simp
    | succ j => simp [ih, Nat.add_assoc, Nat.add_comm 1]

/-- **The stream is its own inverse**: decrypting is encrypting again. -/
@[simp] theorem xorKeyStream_xorKeyStream (ks : ℕ → UInt8) (i : ℕ) (bs : Bytes) :
    xorKeyStream ks i (xorKeyStream ks i bs) = bs := by
  induction bs generalizing i <;> simp [*]

/-- A difference `δ` XORed into the input is XORed into the output unchanged: the
stream cipher is malleable. -/
theorem xorKeyStream_zipWith_xor (ks : ℕ → UInt8) (i : ℕ) (bs δ : Bytes) :
    xorKeyStream ks i (List.zipWith (· ^^^ ·) bs δ) =
      List.zipWith (· ^^^ ·) (xorKeyStream ks i bs) δ := by
  induction bs generalizing i δ with
  | nil => rfl
  | cons b bs ih =>
    cases δ with
    | nil => rfl
    | cons d δ => simp [ih, UInt8.xor_right_comm]

/-! ### Strings

A Go string is a sequence of bytes, and `[]byte(s)` and `string(b)` convert without
looking at them.  A Lean `String` is a sequence of Unicode scalar values, so it stands for
the Go string of its UTF-8 bytes; the Go strings the model meets as Lean strings are those
`utf8.Valid` accepts, which the protobuf runtime checks of every `string` field. -/

@[simp] theorem Nat.toUInt8_toNat_of_lt {n : ℕ} (h : n < 256) : n.toUInt8.toNat = n := by
  simp [Nat.toUInt8, UInt8.toNat, UInt8.ofNat, Nat.mod_eq_of_lt h]

theorem UInt8.eq_toUInt8 {b : UInt8} {n : ℕ} (h : b.toNat = n) : n.toUInt8 = b :=
  UInt8.toNat.inj (by rw [Nat.toUInt8_toNat_of_lt (h ▸ b.val.isLt)]; exact h.symm)

theorem Char.toNat_ofNat_of_valid {v : ℕ} (h : v.isValidChar) : (Char.ofNat v).toNat = v := by
  rw [Char.ofNat, dif_pos h]
  rfl

/-- `utf8.EncodeRune`: one byte below `0x80`; otherwise a leading byte announcing one to
three continuation bytes, each carrying six bits of the value. -/
def encodeRune (c : Char) : Bytes :=
  let n := c.toNat
  if n < 0x80 then [n.toUInt8]
  else if n < 0x800 then [(0xC0 + n / 64).toUInt8, (0x80 + n % 64).toUInt8]
  else if n < 0x10000 then
    [(0xE0 + n / 4096).toUInt8, (0x80 + n / 64 % 64).toUInt8, (0x80 + n % 64).toUInt8]
  else
    [(0xF0 + n / 262144).toUInt8, (0x80 + n / 4096 % 64).toUInt8,
      (0x80 + n / 64 % 64).toUInt8, (0x80 + n % 64).toUInt8]

/-- Go's `[]byte(s)`: the UTF-8 bytes of a string. -/
def bytesOfString (s : String) : Bytes := s.data.flatMap encodeRune

/-- How many continuation bytes follow a leading byte, and the value bits it carries; none
for a byte that starts no character: a continuation byte, the overlong leads `0xC0` and
`0xC1`, and `0xF5` on. -/
def runeStart (b : ℕ) : Option (ℕ × ℕ) :=
  if b < 0x80 then some (0, b)
  else if b < 0xC2 then none
  else if b < 0xE0 then some (1, b - 0xC0)
  else if b < 0xF0 then some (2, b - 0xE0)
  else if b < 0xF5 then some (3, b - 0xF0)
  else none

/-- Read `k` continuation bytes (`0x80` to `0xBF`), six value bits each, after the bits
`acc` read so far. -/
def readCont : ℕ → ℕ → Bytes → Option (ℕ × Bytes)
  | 0, acc, bs => some (acc, bs)
  | _ + 1, _, [] => none
  | k + 1, acc, b :: bs =>
    if 0x80 ≤ b.toNat ∧ b.toNat < 0xC0 then readCont k (acc * 64 + (b.toNat - 0x80)) bs
    else none

/-- The least value a character with `k` continuation bytes may have: a smaller one would
fit in fewer bytes, and its encoding is overlong. -/
def runeMin : ℕ → ℕ
  | 0 => 0
  | 1 => 0x80
  | 2 => 0x800
  | _ => 0x10000

/-- `utf8.DecodeRune`, where `utf8.Valid` accepts: the character at the front of the bytes
and the bytes after it; none when they do not start with the UTF-8 of a character (a
truncated or overlong encoding, a surrogate, or a value above `0x10FFFF`). -/
def decodeRune : Bytes → Option (Char × Bytes)
  | [] => none
  | b :: bs => do
    let (k, lead) ← runeStart b.toNat
    let (v, rest) ← readCont k lead bs
    if runeMin k ≤ v ∧ v.isValidChar then some (Char.ofNat v, rest) else none

/-- Decode characters until the input ends; `fuel` bounds their number. -/
def decodeChars : ℕ → Bytes → Option (List Char)
  | _, [] => some []
  | 0, _ :: _ => none
  | fuel + 1, b :: bs => do
    let (c, rest) ← decodeRune (b :: bs)
    let cs ← decodeChars fuel rest
    pure (c :: cs)

/-- Go's `string(b)` for bytes `utf8.Valid` accepts, and none for the others.  Every
character takes a byte at least, so the input's length is enough fuel. -/
def stringOfBytes? (b : Bytes) : Option String := (decodeChars b.length b).map String.mk

theorem readCont_cons {k acc : ℕ} {b : UInt8} {bs : Bytes}
    (h : 0x80 ≤ b.toNat ∧ b.toNat < 0xC0) :
    readCont (k + 1) acc (b :: bs) = readCont k (acc * 64 + (b.toNat - 0x80)) bs := by
  simp [readCont, h]

theorem readCont_succ_eq_some {k acc v : ℕ} {bs rest : Bytes}
    (h : readCont (k + 1) acc bs = some (v, rest)) :
    ∃ b bs', bs = b :: bs' ∧ 0x80 ≤ b.toNat ∧ b.toNat < 0xC0 ∧
      readCont k (acc * 64 + (b.toNat - 0x80)) bs' = some (v, rest) := by
  rcases bs with _ | ⟨b, bs'⟩
  · cases h
  · unfold readCont at h
    split_ifs at h with hb
    exact ⟨b, bs', rfl, hb.1, hb.2, h⟩

/-- What a leading byte says: how many continuation bytes follow, and its value bits. -/
theorem runeStart_eq_some {n k l : ℕ} (h : runeStart n = some (k, l)) :
    k = 0 ∧ l = n ∧ n < 0x80 ∨ k = 1 ∧ l = n - 0xC0 ∧ 0xC2 ≤ n ∧ n < 0xE0 ∨
      k = 2 ∧ l = n - 0xE0 ∧ 0xE0 ≤ n ∧ n < 0xF0 ∨ k = 3 ∧ l = n - 0xF0 ∧ 0xF0 ≤ n ∧ n < 0xF5 := by
  unfold runeStart at h
  split_ifs at h <;> simp only [Option.some.injEq, Prod.mk.injEq, reduceCtorEq] at h <;> omega

/-- A character read from its leading byte and its continuation bytes. -/
theorem decodeRune_of {b : UInt8} {bs rest : Bytes} {k l v : ℕ}
    (hs : runeStart b.toNat = some (k, l)) (hr : readCont k l bs = some (v, rest))
    (hm : runeMin k ≤ v) (hv : v.isValidChar) :
    decodeRune (b :: bs) = some (Char.ofNat v, rest) := by
  simp [decodeRune, hs, hr, hm, hv]

theorem cont_toNat {n : ℕ} (h : n < 64) :
    0x80 ≤ (0x80 + n).toUInt8.toNat ∧ (0x80 + n).toUInt8.toNat < 0xC0 := by
  rw [Nat.toUInt8_toNat_of_lt (by omega)]
  omega

/-- **UTF-8 decodes what it encodes**, one character at a time, in each of the four
lengths. -/
theorem decodeRune_encodeRune (c : Char) (rest : Bytes) :
    decodeRune (encodeRune c ++ rest) = some (c, rest) := by
  have hv : c.toNat < 0xd800 ∨ (0xdfff < c.toNat ∧ c.toNat < 0x110000) := c.valid
  conv_rhs => rw [← Char.ofNat_toNat c]
  dsimp only [encodeRune]
  split_ifs with h1 h2 h3
  · refine decodeRune_of (k := 0) ?_ rfl (Nat.zero_le _) hv
    rw [Nat.toUInt8_toNat_of_lt (by omega)]
    simp [runeStart, h1]
  · refine decodeRune_of (k := 1) (l := c.toNat / 64) ?_ ?_ (by simp [runeMin]; omega) hv
    · rw [Nat.toUInt8_toNat_of_lt (by omega)]
      simp only [runeStart]
      rw [if_neg (by omega), if_neg (by omega), if_pos (by omega), Nat.add_sub_cancel_left]
    · rw [List.append_eq, List.cons_append, List.nil_append, readCont_cons (cont_toNat (by omega)),
        Nat.toUInt8_toNat_of_lt (by omega)]
      simp only [readCont, Option.some.injEq, Prod.mk.injEq, and_true]
      omega
  · refine decodeRune_of (k := 2) (l := c.toNat / 4096) ?_ ?_ (by simp [runeMin]; omega) hv
    · rw [Nat.toUInt8_toNat_of_lt (by omega)]
      simp only [runeStart]
      rw [if_neg (by omega), if_neg (by omega), if_neg (by omega), if_pos (by omega),
        Nat.add_sub_cancel_left]
    · rw [List.append_eq, List.cons_append, List.cons_append, List.nil_append,
        readCont_cons (cont_toNat (by omega)), readCont_cons (cont_toNat (by omega)),
        Nat.toUInt8_toNat_of_lt (by omega), Nat.toUInt8_toNat_of_lt (by omega)]
      simp only [readCont, Option.some.injEq, Prod.mk.injEq, and_true]
      omega
  · refine decodeRune_of (k := 3) (l := c.toNat / 262144) ?_ ?_ (by simp [runeMin]; omega) hv
    · rw [Nat.toUInt8_toNat_of_lt (by omega)]
      simp only [runeStart]
      rw [if_neg (by omega), if_neg (by omega), if_neg (by omega), if_neg (by omega),
        if_pos (by omega), Nat.add_sub_cancel_left]
    · rw [List.append_eq, List.cons_append, List.cons_append, List.cons_append, List.nil_append,
        readCont_cons (cont_toNat (by omega)), readCont_cons (cont_toNat (by omega)),
        readCont_cons (cont_toNat (by omega)), Nat.toUInt8_toNat_of_lt (by omega),
        Nat.toUInt8_toNat_of_lt (by omega), Nat.toUInt8_toNat_of_lt (by omega)]
      simp only [readCont, Option.some.injEq, Prod.mk.injEq, and_true]
      omega

/-- **What `decodeRune` accepts is the UTF-8 of the character it returns**: every byte is
read back by the encoder, in each of the four lengths. -/
theorem encodeRune_of_decodeRune {bs rest : Bytes} {c : Char}
    (h : decodeRune bs = some (c, rest)) : encodeRune c ++ rest = bs := by
  rcases bs with _ | ⟨b, bs⟩
  · cases h
  simp only [decodeRune, Option.bind_eq_bind, Option.bind_eq_some, Prod.exists] at h
  obtain ⟨k, l, hs, v, rest', hr, h⟩ := h
  split_ifs at h with hv
  simp only [Option.some.injEq, Prod.mk.injEq] at h
  obtain ⟨rfl, rfl⟩ := h
  have hb : b.toNat < 256 := b.val.isLt
  rw [encodeRune, Char.toNat_ofNat_of_valid hv.2]
  rcases runeStart_eq_some hs with ⟨hk, hl, h0⟩ | ⟨hk, hl, h0, h1⟩ | ⟨hk, hl, h0, h1⟩ |
    ⟨hk, hl, h0, h1⟩ <;> rw [hk, hl] at hr <;> rw [hk] at hv
  · -- One byte.
    simp only [readCont, Option.some.injEq, Prod.mk.injEq] at hr
    obtain ⟨rfl, rfl⟩ := hr
    rw [if_pos h0, UInt8.eq_toUInt8 rfl]
    rfl
  · -- Two bytes.
    obtain ⟨c₁, bs₁, rfl, hc₁, hc₁', hr⟩ := readCont_succ_eq_some hr
    simp only [readCont, Option.some.injEq, Prod.mk.injEq] at hr
    obtain ⟨rfl, rfl⟩ := hr
    rw [if_neg (by omega), if_pos (by omega), UInt8.eq_toUInt8 (b := b) (by omega),
      UInt8.eq_toUInt8 (b := c₁) (by omega)]
    rfl
  · -- Three bytes.
    obtain ⟨c₁, bs₁, rfl, hc₁, hc₁', hr⟩ := readCont_succ_eq_some hr
    obtain ⟨c₂, bs₂, rfl, hc₂, hc₂', hr⟩ := readCont_succ_eq_some hr
    simp only [readCont, Option.some.injEq, Prod.mk.injEq] at hr
    obtain ⟨rfl, rfl⟩ := hr
    simp only [runeMin] at hv
    rw [if_neg (by omega), if_neg (by omega), if_pos (by omega),
      UInt8.eq_toUInt8 (b := b) (by omega), UInt8.eq_toUInt8 (b := c₁) (by omega),
      UInt8.eq_toUInt8 (b := c₂) (by omega)]
    rfl
  · -- Four bytes.
    obtain ⟨c₁, bs₁, rfl, hc₁, hc₁', hr⟩ := readCont_succ_eq_some hr
    obtain ⟨c₂, bs₂, rfl, hc₂, hc₂', hr⟩ := readCont_succ_eq_some hr
    obtain ⟨c₃, bs₃, rfl, hc₃, hc₃', hr⟩ := readCont_succ_eq_some hr
    simp only [readCont, Option.some.injEq, Prod.mk.injEq] at hr
    obtain ⟨rfl, rfl⟩ := hr
    simp only [runeMin] at hv
    rw [if_neg (by omega), if_neg (by omega), if_neg (by omega),
      UInt8.eq_toUInt8 (b := b) (by omega), UInt8.eq_toUInt8 (b := c₁) (by omega),
      UInt8.eq_toUInt8 (b := c₂) (by omega), UInt8.eq_toUInt8 (b := c₃) (by omega)]
    rfl

theorem encodeRune_ne_nil (c : Char) : encodeRune c ≠ [] := by
  dsimp only [encodeRune]
  split_ifs <;> simp

theorem le_length_flatMap_encodeRune : ∀ cs : List Char,
    cs.length ≤ (cs.flatMap encodeRune).length
  | [] => le_rfl
  | c :: cs => by
    have h1 := le_length_flatMap_encodeRune cs
    have h2 := List.length_pos.mpr (encodeRune_ne_nil c)
    simp only [List.flatMap_cons, List.length_cons, List.length_append]
    omega

theorem decodeChars_flatMap : ∀ (cs : List Char) (fuel : ℕ), cs.length ≤ fuel →
    decodeChars fuel (cs.flatMap encodeRune) = some cs
  | [], fuel, _ => by cases fuel <;> rfl
  | c :: cs, fuel + 1, h => by
    obtain ⟨b, bs, hbs⟩ := List.exists_cons_of_ne_nil (encodeRune_ne_nil c)
    have hcons : (c :: cs).flatMap encodeRune = b :: (bs ++ cs.flatMap encodeRune) := by
      simp [hbs]
    have hr : decodeRune (b :: (bs ++ cs.flatMap encodeRune)) =
        some (c, cs.flatMap encodeRune) := by
      rw [← List.cons_append, ← hbs, decodeRune_encodeRune]
    simp [hcons, decodeChars, hr, decodeChars_flatMap cs fuel (by simpa using h)]

theorem flatMap_of_decodeChars : ∀ {fuel : ℕ} {bs : Bytes} {cs : List Char},
    decodeChars fuel bs = some cs → cs.flatMap encodeRune = bs
  | fuel, [], cs, h => by
    cases fuel <;>
    · simp only [decodeChars, Option.some.injEq] at h
      subst h
      rfl
  | 0, _ :: _, _, h => by cases h
  | fuel + 1, b :: bs, cs, h => by
    simp only [decodeChars, Option.bind_eq_bind, Option.bind_eq_some, Prod.exists] at h
    obtain ⟨c, rest, hr, cs', hcs, h⟩ := h
    cases h
    rw [List.flatMap_cons, flatMap_of_decodeChars hcs, encodeRune_of_decodeRune hr]

/-- **Bytes are valid UTF-8 exactly when they are the UTF-8 of a string, and then they
decode to that string.** -/
theorem stringOfBytes?_eq_some_iff {b : Bytes} {s : String} :
    stringOfBytes? b = some s ↔ b = bytesOfString s := by
  constructor
  · intro h
    obtain ⟨cs, hcs, rfl⟩ := Option.map_eq_some'.mp h
    exact (flatMap_of_decodeChars hcs).symm
  · rintro rfl
    rw [stringOfBytes?, bytesOfString,
      decodeChars_flatMap s.data _ (le_length_flatMap_encodeRune s.data)]
    rfl

theorem bytesOfString_eq_nil_iff (s : String) : bytesOfString s = [] ↔ s = "" := by
  obtain ⟨cs⟩ := s
  cases cs with
  | nil => simp [bytesOfString]
  | cons c cs => simp [bytesOfString, encodeRune_ne_nil, String.ext_iff]

end Loopix
