import Mathlib

namespace Msgp

abbrev Bytes := List (BitVec 8)

def ascii (s : String) : Bytes := s.toList.map fun c => BitVec.ofNat 8 c.toNat

/-- `big.PutUint16/32/64`: the `width` low bytes of `n`, most significant first. -/
def putUint : Nat → Nat → Bytes
  | 0, _ => []
  | width + 1, n => putUint width (n / 256) ++ [BitVec.ofNat 8 n]

/-- `big.Uint16/32/64`: the bytes read as a big-endian number. -/
def getUint (bytes : Bytes) : Nat := bytes.foldl (fun acc b => acc * 256 + b.toNat) 0

@[simp] theorem putUint_length (width n : Nat) : (putUint width n).length = width := by
  induction width generalizing n with
  | zero => rfl
  | succ width ih => simp [putUint, ih]

theorem getUint_snoc (bytes : Bytes) (b : BitVec 8) :
    getUint (bytes ++ [b]) = getUint bytes * 256 + b.toNat := by
  simp [getUint, List.foldl_append]

theorem getUint_putUint (width n : Nat) : getUint (putUint width n) = n % 256 ^ width := by
  induction width generalizing n with
  | zero => simp [putUint, getUint, Nat.mod_one]
  | succ width ih =>
    have low : (BitVec.ofNat 8 n).toNat = n % 256 := BitVec.toNat_ofNat n 8
    rw [putUint, getUint_snoc, ih, low, Nat.pow_succ', Nat.mod_mul]
    omega

theorem getUint_putUint_of_lt {width n : Nat} (bound : n < 256 ^ width) :
    getUint (putUint width n) = n := by
  rw [getUint_putUint, Nat.mod_eq_of_lt bound]

theorem getUint_lt (bytes : Bytes) : getUint bytes < 256 ^ bytes.length := by
  induction bytes using List.reverseRecOn with
  | nil => decide
  | append_singleton bytes b ih =>
    have bound := b.isLt
    rw [getUint_snoc, List.length_append, List.length_singleton, Nat.pow_succ]
    have step : (getUint bytes + 1) * 256 ≤ 256 ^ bytes.length * 256 := Nat.mul_le_mul_right _ ih
    omega

theorem putUint_getUint (bytes : Bytes) : putUint bytes.length (getUint bytes) = bytes := by
  induction bytes using List.reverseRecOn with
  | nil => rfl
  | append_singleton bytes b ih =>
    have bound := b.isLt
    have quotient : (getUint bytes * 256 + b.toNat) / 256 = getUint bytes := by omega
    rw [List.length_append, List.length_singleton, putUint, getUint_snoc, quotient, ih]
    congr
    apply BitVec.eq_of_toNat_eq
    rw [BitVec.toNat_ofNat]
    omega

def isfixint (b : BitVec 8) : Bool := b >>> 7 == 0
def isnfixint (b : BitVec 8) : Bool := b &&& 0xe0 == 0xe0
def isfixmap (b : BitVec 8) : Bool := b &&& 0xf0 == 0x80
def isfixarray (b : BitVec 8) : Bool := b &&& 0xf0 == 0x90
def isfixstr (b : BitVec 8) : Bool := b &&& 0xe0 == 0xa0
def rfixmap (b : BitVec 8) : Nat := (b &&& 0x0f).toNat
def rfixarray (b : BitVec 8) : Nat := (b &&& 0x0f).toNat
def rfixstr (b : BitVec 8) : Nat := (b &&& 0x1f).toNat
def wfixmap (u : Nat) : BitVec 8 := 0x80 ||| (BitVec.ofNat 8 u &&& 0x0f)
def wfixarray (u : Nat) : BitVec 8 := (BitVec.ofNat 8 u &&& 0x0f) ||| 0x90
def wfixstr (u : Nat) : BitVec 8 := (BitVec.ofNat 8 u &&& 0x1f) ||| 0xa0
def wfixint (u : Nat) : BitVec 8 := BitVec.ofNat 8 u &&& 0x7f

/-- `wnfixint(int8(i))`: the byte of a negative fixint, `byte(i) | 0xe0`. -/
def wnfixint (i : Int) : BitVec 8 := BitVec.ofInt 8 i ||| 0xe0

theorem isfixint_iff : ∀ b : BitVec 8, isfixint b = decide (b.toNat < 0x80) := by decide
theorem isnfixint_iff : ∀ b : BitVec 8, isnfixint b = decide (0xe0 ≤ b.toNat) := by decide
theorem isfixmap_iff : ∀ b : BitVec 8,
    isfixmap b = (decide (0x80 ≤ b.toNat) && decide (b.toNat < 0x90)) := by decide
theorem isfixarray_iff : ∀ b : BitVec 8,
    isfixarray b = (decide (0x90 ≤ b.toNat) && decide (b.toNat < 0xa0)) := by decide
theorem isfixstr_iff : ∀ b : BitVec 8,
    isfixstr b = (decide (0xa0 ≤ b.toNat) && decide (b.toNat < 0xc0)) := by decide

/-- The `Type` values msgp reports in a `TypeError`. -/
inductive MsgType
  | invalid | str | bin | map | array | float64 | float32 | bool | int | uint | nil | extension
  deriving DecidableEq, Repr

inductive Extra
  | objects (count : Nat)
  | extra8 | extra16 | extra32
  | map16v | map32v | array16v | array32v
  deriving DecidableEq, Repr

structure ByteSpec where
  size : Nat
  extra : Extra
  typ : MsgType
  deriving DecidableEq, Repr

def sizes (lead : BitVec 8) : ByteSpec :=
  let n := lead.toNat
  if n < 0x80 then ⟨1, .objects 0, .int⟩
  else if n < 0x90 then ⟨1, .objects (2 * rfixmap lead), .map⟩
  else if n < 0xa0 then ⟨1, .objects (rfixarray lead), .array⟩
  else if n < 0xc0 then ⟨1 + rfixstr lead, .objects 0, .str⟩
  else if n ≥ 0xe0 then ⟨1, .objects 0, .int⟩
  else match n with
    | 0xc0 => ⟨1, .objects 0, .nil⟩
    | 0xc2 | 0xc3 => ⟨1, .objects 0, .bool⟩
    | 0xc4 => ⟨2, .extra8, .bin⟩
    | 0xc5 => ⟨3, .extra16, .bin⟩
    | 0xc6 => ⟨5, .extra32, .bin⟩
    | 0xc7 => ⟨3, .extra8, .extension⟩
    | 0xc8 => ⟨4, .extra16, .extension⟩
    | 0xc9 => ⟨6, .extra32, .extension⟩
    | 0xca => ⟨5, .objects 0, .float32⟩
    | 0xcb => ⟨9, .objects 0, .float64⟩
    | 0xcc => ⟨2, .objects 0, .uint⟩
    | 0xcd => ⟨3, .objects 0, .uint⟩
    | 0xce => ⟨5, .objects 0, .uint⟩
    | 0xcf => ⟨9, .objects 0, .uint⟩
    | 0xd0 => ⟨2, .objects 0, .int⟩
    | 0xd1 => ⟨3, .objects 0, .int⟩
    | 0xd2 => ⟨5, .objects 0, .int⟩
    | 0xd3 => ⟨9, .objects 0, .int⟩
    | 0xd4 => ⟨3, .objects 0, .extension⟩
    | 0xd5 => ⟨4, .objects 0, .extension⟩
    | 0xd6 => ⟨6, .objects 0, .extension⟩
    | 0xd7 => ⟨10, .objects 0, .extension⟩
    | 0xd8 => ⟨18, .objects 0, .extension⟩
    | 0xd9 => ⟨2, .extra8, .str⟩
    | 0xda => ⟨3, .extra16, .str⟩
    | 0xdb => ⟨5, .extra32, .str⟩
    | 0xdc => ⟨3, .array16v, .array⟩
    | 0xdd => ⟨5, .array32v, .array⟩
    | 0xde => ⟨3, .map16v, .map⟩
    | 0xdf => ⟨5, .map32v, .map⟩
    | _ => ⟨0, .objects 0, .invalid⟩

/-- `getType`: the type msgp names for a lead byte. -/
def getType (lead : BitVec 8) : MsgType := (sizes lead).typ

def byteSize : Nat := 2
def intSize : Nat := 9
def stringPrefixSize : Nat := 5
def arrayHeaderSize : Nat := 5

/-- The errors of msgp v1.1.5 (`errors.go`) that the readers return: `TypeError`,
`UintOverflow` and `UintBelowZero` carry the context `WrapError` gives them, and `wrapped` is
`errWrapped`, the context `WrapError` puts around any other error. -/
inductive MsgpError
  | shortBytes
  | eof
  | invalidPrefix (lead : BitVec 8)
  | typeError (method encoded : MsgType) (ctx : String)
  | uintOverflow (value : Nat) (bitsize : Nat) (ctx : String)
  | uintBelowZero (value : Int) (ctx : String)
  | wrapped (cause : MsgpError) (ctx : String)
  deriving DecidableEq, Repr

/-- `badPrefix`: a lead byte of the wrong type, or one that is no type at all. -/
def badPrefix (want : MsgType) (lead : BitVec 8) : MsgpError :=
  if getType lead = .invalid then .invalidPrefix lead else .typeError want (getType lead) ""

/-- `ctxString`: the context values joined by `/`. -/
def ctxString (ctx : List String) : String := "/".intercalate ctx

/-- `addCtx`: the new context in front of the one an error carries. -/
def addCtx (ctx add : String) : String := if ctx ≠ "" then add ++ "/" ++ ctx else add

/-- `WrapError(err, ctx...)`. `ErrShortBytes` passes through. An error with a context takes the new
one through its `withContext`, where `UintBelowZero` overwrites what it carries and the others
put the new context in front; any other error goes inside an `errWrapped`. -/
def wrapError (err : MsgpError) (ctx : List String) : MsgpError :=
  match err with
  | .shortBytes => .shortBytes
  | .typeError method encoded c => .typeError method encoded (addCtx c (ctxString ctx))
  | .uintOverflow value bitsize c => .uintOverflow value bitsize (addCtx c (ctxString ctx))
  | .uintBelowZero value _ => .uintBelowZero value (ctxString ctx)
  | err => .wrapped err (ctxString ctx)

end Msgp
