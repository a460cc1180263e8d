import Mathlib.Data.Nat.Bitwise
import Mathlib.Tactic.Ring
import DialCache.UnicodeText

/-!
# The first frame of compressed bytes

The decoder of the stream is given the first zstd frame only. `firstZstdFrame` finds its end
from the block headers. A slice index out of range and an integer that does not fit are
faults of the model, so that their absence can be stated.
-/

namespace DialCache.ZstdFrames

/-- The sizes of `int`. -/
inductive IntSize
  | bits32
  | bits64
  deriving DecidableEq, Repr

def IntSize.maxInt : IntSize → ℕ
  | .bits32 => 2 ^ 31 - 1
  | .bits64 => 2 ^ 63 - 1

/-- The fields of a decoded frame header that are read. -/
structure Header where
  headerSize : ℕ
  skippable : Bool
  skippableSize : UInt32
  hasCheckSum : Bool
  deriving DecidableEq, Repr

/-- `header.Decode`: what it accepts depends on the bytes of the header only. -/
structure HeaderDecoder where
  decode : Bytes → Except String Header
  dependsOnHeader : ∀ body header, decode body = .ok header → header.headerSize ≤ body.length →
    ∀ other, other.take header.headerSize = body.take header.headerSize →
      header.headerSize ≤ other.length → decode other = .ok header

inductive FrameError
  | header (error : String)
  | unexpectedEOF
  | reservedBlockType
  deriving Repr

inductive Fault
  | outOfRange
  | overflow
  deriving DecidableEq, Repr

variable {stop : ℤ} {last : Bool}

variable {start : ℤ}

section Scan

variable (width : IntSize) (body : Bytes)

/-- The result of an `int` operation. -/
def checked (n : ℤ) : Except Fault ℤ :=
  if -(width.maxInt : ℤ) - 1 ≤ n ∧ n ≤ width.maxInt then .ok n else .error .overflow

def byteAt (i : ℤ) : Except Fault UInt8 :=
  if i < 0 then .error .outOfRange
  else
    match body[i.toNat]? with
    | some b => .ok b
    | none => .error .outOfRange

/-- The slice of the bytes before an index. -/
def sliceTo (stop : ℤ) : Except Fault Bytes :=
  if 0 ≤ stop ∧ stop ≤ body.length then .ok (body.take stop.toNat) else .error .outOfRange

def uint64 (n : ℤ) : ℕ := (n % 2 ^ 64).toNat

/-- Three bytes of a block header, the lowest first. -/
def blockWord (b₀ b₁ b₂ : UInt8) : UInt32 :=
  b₀.toUInt32 ||| b₁.toUInt32 <<< 8 ||| b₂.toUInt32 <<< 16

/-- The end of the block that starts at a position, and whether it is the last one. -/
def blockEnd (start : ℤ) : Except Fault (Except FrameError (Bool × ℤ)) := do
  let left ← checked width (body.length - start)
  if left < 3 then return .error .unexpectedEOF
  else
    let b₀ ← byteAt body start
    let b₁ ← byteAt body (← checked width (start + 1))
    let b₂ ← byteAt body (← checked width (start + 2))
    let block := blockWord b₀ b₁ b₂
    let last := block &&& 1 != 0
    let kind := block >>> 1 &&& 3
    let size ← checked width (block >>> 3).toNat
    let content ← checked width (start + 3)
    if kind = 3 then return .error .reservedBlockType
    else
      let size := if kind = 1 then 1 else size
      let left ← checked width (body.length - content)
      if left < size then return .error .unexpectedEOF
      else
        let stop ← checked width (content + size)
        return .ok (last, stop)

variable {width body}

theorem ok_of_bind {α β : Type} {x : Except Fault α} {f : α → Except Fault β} {b : β}
    (h : (x >>= f) = .ok b) : ∃ a, x = .ok a ∧ f a = .ok b := by
  cases x with
  | error fault => cases h
  | ok a => exact ⟨a, rfl, h⟩

theorem ok_bind {α β : Type} (a : α) (f : α → Except Fault β) : (Except.ok a >>= f) = f a := rfl

theorem eq_of_checked {n m : ℤ} (h : checked width n = .ok m) : m = n := by
  unfold checked at h
  split at h
  · cases h
    rfl
  · cases h

/-- A block ends behind its header and inside the bytes. -/
theorem bounds_of_blockEnd (h : blockEnd width body start = .ok (.ok (last, stop))) :
    start + 3 ≤ stop ∧ stop ≤ body.length := by
  unfold blockEnd at h
  obtain ⟨left, hleft, h⟩ := ok_of_bind h
  split at h
  · cases h
  obtain ⟨b₀, -, h⟩ := ok_of_bind h
  obtain ⟨i₁, -, h⟩ := ok_of_bind h
  obtain ⟨b₁, -, h⟩ := ok_of_bind h
  obtain ⟨i₂, -, h⟩ := ok_of_bind h
  obtain ⟨b₂, -, h⟩ := ok_of_bind h
  obtain ⟨size, hsize, h⟩ := ok_of_bind h
  obtain ⟨content, hcontent, h⟩ := ok_of_bind h
  have hsize' := eq_of_checked hsize
  have hcontent' := eq_of_checked hcontent
  split at h
  · cases h
  obtain ⟨rest, hrest, h⟩ := ok_of_bind h
  have hrest' := eq_of_checked hrest
  generalize hoccupied : (if blockWord b₀ b₁ b₂ >>> 1 &&& 3 = 1 then 1 else size) = occupied at h
  have hnonneg : 0 ≤ occupied := by
    rw [← hoccupied]
    split <;> omega
  split at h
  · cases h
  rename_i hfits
  obtain ⟨stop', hstop, h⟩ := ok_of_bind h
  have hstop' := eq_of_checked hstop
  cases h
  omega

variable (width body)

/-- The loop over the blocks: the end of the last one. -/
def blocksEnd (start : ℤ) : Except Fault (Except FrameError ℤ) :=
  match _h : blockEnd width body start with
  | .error fault => .error fault
  | .ok (.error e) => .ok (.error e)
  | .ok (.ok (true, stop)) => .ok (.ok stop)
  | .ok (.ok (false, stop)) => blocksEnd stop
termination_by (body.length - start).toNat
decreasing_by
  have hbounds := bounds_of_blockEnd _h
  omega

/-- The checksum behind the blocks. -/
def checksumEnd (header : Header) (stop : ℤ) : Except Fault (Except FrameError ℤ) :=
  if header.hasCheckSum then do
    let left ← checked width (body.length - stop)
    if left < 4 then return .error .unexpectedEOF
    else return .ok (← checked width (stop + 4))
  else return .ok stop

def skippableFrame (header : Header) : Except Fault (Except FrameError Bytes) := do
  let left ← checked width (body.length - header.headerSize)
  if header.skippableSize.toNat > uint64 left then return .error .unexpectedEOF
  else
    let size ← checked width header.skippableSize.toNat
    return .ok (← sliceTo body (← checked width (header.headerSize + size)))

def standardFrame (header : Header) : Except Fault (Except FrameError Bytes) := do
  match ← blocksEnd width body header.headerSize with
  | .error e => return .error e
  | .ok stop =>
    match ← checksumEnd width body header stop with
    | .error e => return .error e
    | .ok stop => return .ok (← sliceTo body stop)

def firstZstdFrame (decoder : HeaderDecoder) :
    Except Fault (Except FrameError Bytes) :=
  match decoder.decode body with
  | .error e => .ok (.error (.header e))
  | .ok header =>
    if header.skippable then skippableFrame width body header
    else standardFrame width body header

end Scan

/-! ### The layout of a frame -/

/-- The number in the three bytes of a block header. -/
def headerValue (b₀ b₁ b₂ : UInt8) : ℕ := b₀.toNat + 2 ^ 8 * b₁.toNat + 2 ^ 16 * b₂.toNat

/-- The bytes behind a block header: a run-length block (kind 1) holds one byte. -/
def occupied (value : ℕ) : ℕ := if value / 2 % 4 = 1 then 1 else value / 8

/-- A block: bit 0 of its header marks the last one, bits 1 and 2 give the kind and the
others the size. Kind 3 is reserved. -/
inductive Block : Bool → Bytes → Prop
  | mk {b₀ b₁ b₂ : UInt8} {content : Bytes}
      (kind : headerValue b₀ b₁ b₂ / 2 % 4 ≠ 3)
      (size : content.length = occupied (headerValue b₀ b₁ b₂)) :
      Block (headerValue b₀ b₁ b₂ % 2 == 1) (b₀ :: b₁ :: b₂ :: content)

/-- Blocks up to the last one. -/
inductive Blocks : Bytes → Prop
  | last {block : Bytes} (h : Block true block) : Blocks block
  | more {block rest : Bytes} (h : Block false block) (tail : Blocks rest) :
      Blocks (block ++ rest)

inductive Frame (header : Header) : Bytes → Prop
  | skippable {front content : Bytes} (kind : header.skippable = true)
      (hfront : front.length = header.headerSize)
      (size : content.length = header.skippableSize.toNat) : Frame header (front ++ content)
  | standard {front blocks checksum : Bytes} (kind : header.skippable = false)
      (hfront : front.length = header.headerSize) (hblocks : Blocks blocks)
      (size : checksum.length = if header.hasCheckSum then 4 else 0) :
      Frame header (front ++ (blocks ++ checksum))

theorem toNat_blockWord (b₀ b₁ b₂ : UInt8) :
    (blockWord b₀ b₁ b₂).toNat = headerValue b₀ b₁ b₂ := by
  have h₀ : b₀.toNat < 2 ^ 8 := b₀.toNat_lt
  have h₁ : b₁.toNat < 2 ^ 8 := b₁.toNat_lt
  have h₂ : b₂.toNat < 2 ^ 8 := b₂.toNat_lt
  have hlow : b₀.toNat ||| b₁.toNat <<< 8 = b₁.toNat <<< 8 + b₀.toNat := by
    rw [Nat.lor_comm, Nat.shiftLeft_add_eq_or_of_lt h₀]
  have hall : (b₁.toNat <<< 8 + b₀.toNat) ||| b₂.toNat <<< 16 =
      b₂.toNat <<< 16 + (b₁.toNat <<< 8 + b₀.toNat) := by
    rw [Nat.lor_comm]
    refine (Nat.shiftLeft_add_eq_or_of_lt ?_ _).symm
    rw [Nat.shiftLeft_eq]
    omega
  have hshift₁ : b₁.toNat <<< 8 % 2 ^ 32 = b₁.toNat <<< 8 := by
    rw [Nat.shiftLeft_eq]
    omega
  have hshift₂ : b₂.toNat <<< 16 % 2 ^ 32 = b₂.toNat <<< 16 := by
    rw [Nat.shiftLeft_eq]
    omega
  have hword : (blockWord b₀ b₁ b₂).toNat =
      b₀.toNat ||| b₁.toNat <<< 8 % 2 ^ 32 ||| b₂.toNat <<< 16 % 2 ^ 32 := by
    rw [blockWord, UInt32.toNat_or, UInt32.toNat_or, UInt32.toNat_shiftLeft,
      UInt32.toNat_shiftLeft, UInt8.toNat_toUInt32, UInt8.toNat_toUInt32, UInt8.toNat_toUInt32]
    rfl
  rw [hword, hshift₁, hshift₂, hlow, hall, headerValue, Nat.shiftLeft_eq, Nat.shiftLeft_eq]
  omega

section Fields

variable (b₀ b₁ b₂ : UInt8)

theorem last_blockWord :
    (blockWord b₀ b₁ b₂ &&& 1 != 0) = (headerValue b₀ b₁ b₂ % 2 == 1) := by
  have hand : (blockWord b₀ b₁ b₂ &&& 1).toNat = headerValue b₀ b₁ b₂ % 2 := by
    rw [UInt32.toNat_and, toNat_blockWord]
    exact Nat.and_one_is_mod _
  have hzero : blockWord b₀ b₁ b₂ &&& 1 = 0 ↔ headerValue b₀ b₁ b₂ % 2 = 0 := by
    rw [← UInt32.toNat_inj, hand]
    rfl
  rw [Bool.eq_iff_iff, bne_iff_ne, beq_iff_eq, ne_eq, hzero]
  omega

theorem kind_blockWord (k : UInt32) :
    blockWord b₀ b₁ b₂ >>> 1 &&& 3 = k ↔ headerValue b₀ b₁ b₂ / 2 % 4 = k.toNat := by
  have hand : (blockWord b₀ b₁ b₂ >>> 1 &&& 3).toNat = headerValue b₀ b₁ b₂ / 2 % 4 := by
    rw [UInt32.toNat_and, UInt32.toNat_shiftRight, toNat_blockWord]
    exact Nat.and_two_pow_sub_one_eq_mod (headerValue b₀ b₁ b₂ >>> 1) 2
  rw [← UInt32.toNat_inj, hand]

theorem size_blockWord : (blockWord b₀ b₁ b₂ >>> 3).toNat = headerValue b₀ b₁ b₂ / 8 := by
  rw [UInt32.toNat_shiftRight, toNat_blockWord]
  exact Nat.shiftRight_eq_div_pow _ 3

theorem headerValue_lt : headerValue b₀ b₁ b₂ < 2 ^ 24 := by
  have h₀ : b₀.toNat < 2 ^ 8 := b₀.toNat_lt
  have h₁ : b₁.toNat < 2 ^ 8 := b₁.toNat_lt
  have h₂ : b₂.toNat < 2 ^ 8 := b₂.toNat_lt
  rw [headerValue]
  omega

end Fields

/-! ### One block -/

section Positions

variable {width : IntSize} {body : Bytes}

theorem le_maxInt (width : IntSize) : 2 ^ 31 - 1 ≤ width.maxInt := by
  cases width
  · exact Nat.le_refl _
  · exact (by decide : 2 ^ 31 - 1 ≤ 2 ^ 63 - 1)

theorem maxInt_lt (width : IntSize) : width.maxInt < 2 ^ 64 := by
  cases width
  · exact (by decide : 2 ^ 31 - 1 < 2 ^ 64)
  · exact (by decide : 2 ^ 63 - 1 < 2 ^ 64)

/-- Positions in the bytes and the sizes of blocks fit. -/
theorem checked_of_le {n : ℤ} (h₀ : 0 ≤ n) (h : n ≤ width.maxInt) : checked width n = .ok n := by
  rw [checked, if_pos]
  omega

variable {front rest : Bytes}

theorem byteAt_append {b : UInt8} {i : ℤ} (hi : i = front.length) :
    byteAt (front ++ b :: rest) i = .ok b := by
  subst hi
  rw [byteAt, if_neg (by omega), Int.toNat_natCast, List.getElem?_append_right (Nat.le_refl _),
    Nat.sub_self]
  rfl

theorem sliceTo_append (h : stop = front.length) : sliceTo (front ++ rest) stop = .ok front := by
  subst h
  rw [sliceTo, if_pos, Int.toNat_natCast, List.take_left]
  rw [List.length_append]
  omega

theorem blockEnd_short (hfits : (front ++ rest).length ≤ width.maxInt) (h : rest.length < 3) :
    blockEnd width (front ++ rest) front.length = .ok (.error .unexpectedEOF) := by
  rw [List.length_append] at hfits
  rw [blockEnd, List.length_append, checked_of_le (by omega) (by omega)]
  change (if _ then _ else _) = _
  rw [if_pos (by omega)]
  rfl

theorem blockEnd_cons {content : Bytes} {b₀ b₁ b₂ : UInt8}
    (hfits : (front ++ b₀ :: b₁ :: b₂ :: content).length ≤ width.maxInt) :
    blockEnd width (front ++ b₀ :: b₁ :: b₂ :: content) front.length =
      .ok (if headerValue b₀ b₁ b₂ / 2 % 4 = 3 then .error .reservedBlockType
        else if content.length < occupied (headerValue b₀ b₁ b₂) then .error .unexpectedEOF
        else .ok (headerValue b₀ b₁ b₂ % 2 == 1,
          front.length + 3 + occupied (headerValue b₀ b₁ b₂))) := by
  have hlength : (front ++ b₀ :: b₁ :: b₂ :: content).length = front.length + 3 + content.length := by
    simp only [List.length_append, List.length_cons]
    omega
  rw [hlength] at hfits
  have hvalue := headerValue_lt b₀ b₁ b₂
  have hmax := le_maxInt width
  have hfirst : byteAt (front ++ b₀ :: b₁ :: b₂ :: content) front.length = .ok b₀ :=
    byteAt_append rfl
  have hsecond : byteAt (front ++ b₀ :: b₁ :: b₂ :: content) (front.length + 1) = .ok b₁ := by
    rw [List.append_cons front b₀]
    exact byteAt_append (by simp)
  have hthird : byteAt (front ++ b₀ :: b₁ :: b₂ :: content) (front.length + 2) = .ok b₂ := by
    rw [List.append_cons front b₀, List.append_cons _ b₁]
    exact byteAt_append (by simp)
  have hoccupied : (if blockWord b₀ b₁ b₂ >>> 1 &&& 3 = 1 then (1 : ℤ)
      else (blockWord b₀ b₁ b₂ >>> 3).toNat) = occupied (headerValue b₀ b₁ b₂) := by
    rw [occupied, size_blockWord]
    by_cases hkind : headerValue b₀ b₁ b₂ / 2 % 4 = 1
    · rw [if_pos hkind, if_pos ((kind_blockWord b₀ b₁ b₂ 1).mpr hkind)]
      rfl
    · rw [if_neg hkind, if_neg (fun h => hkind ((kind_blockWord b₀ b₁ b₂ 1).mp h))]
  have hsize : checked width (blockWord b₀ b₁ b₂ >>> 3).toNat =
      .ok ((blockWord b₀ b₁ b₂ >>> 3).toNat : ℤ) := by
    rw [size_blockWord]
    exact checked_of_le (by omega) (by omega)
  have hpast : ∀ n : ℤ, 0 ≤ n → n ≤ front.length + 3 + content.length → checked width n = .ok n :=
    fun n h₀ h => checked_of_le h₀ (by omega)
  rw [blockEnd, hlength, hpast _ (by omega) (by omega), ok_bind, if_neg (by omega), hfirst, ok_bind,
    hpast _ (by omega) (by omega), ok_bind, hsecond, ok_bind, hpast _ (by omega) (by omega),
    ok_bind, hthird, ok_bind]
  dsimp only
  rw [hsize, ok_bind, hpast _ (by omega) (by omega), ok_bind, hoccupied]
  by_cases hreserved : headerValue b₀ b₁ b₂ / 2 % 4 = 3
  · rw [if_pos hreserved, if_pos ((kind_blockWord b₀ b₁ b₂ 3).mpr hreserved)]
    rfl
  rw [if_neg hreserved, if_neg (fun h => hreserved ((kind_blockWord b₀ b₁ b₂ 3).mp h)),
    hpast _ (by omega) (by omega), ok_bind]
  by_cases hshort : content.length < occupied (headerValue b₀ b₁ b₂)
  · rw [if_pos hshort, if_pos (by omega)]
    rfl
  rw [if_neg hshort, if_neg (by omega), hpast _ (by omega) (by omega), ok_bind, last_blockWord]
  rfl

theorem Block.length_pos {block : Bytes} (h : Block last block) : 3 ≤ block.length := by
  cases h with
  | mk kind size =>
    simp only [List.length_cons]
    omega

theorem blockEnd_block {block : Bytes} (h : Block last block)
    (hfits : (front ++ (block ++ rest)).length ≤ width.maxInt) :
    blockEnd width (front ++ (block ++ rest)) front.length =
      .ok (.ok (last, (front ++ block).length)) := by
  cases h with
  | @mk b₀ b₁ b₂ content kind size =>
    rw [List.cons_append, List.cons_append, List.cons_append] at hfits ⊢
    rw [blockEnd_cons hfits, if_neg kind, if_neg]
    · simp only [List.length_append, List.length_cons, ← size]
      push_cast
      rw [show (content.length : ℤ) + 1 + 1 + 1 = 3 + content.length by omega, Int.add_assoc]
    · rw [List.length_append]
      omega

/-- At every position stands a block, or the scan ends with an error. -/
theorem block_or_error (hfits : (front ++ rest).length ≤ width.maxInt) :
    (∃ last block tail, rest = block ++ tail ∧ Block last block) ∨
      ∃ e, blockEnd width (front ++ rest) front.length = .ok (.error e) := by
  by_cases hshort : rest.length < 3
  · exact Or.inr ⟨_, blockEnd_short hfits hshort⟩
  obtain ⟨b₀, b₁, b₂, content, rfl⟩ : ∃ b₀ b₁ b₂ content, rest = b₀ :: b₁ :: b₂ :: content := by
    rcases rest with _ | ⟨b₀, _ | ⟨b₁, _ | ⟨b₂, content⟩⟩⟩
    · exact absurd (Nat.zero_lt_succ 2) hshort
    · exact absurd (Nat.lt_add_of_pos_right (Nat.zero_lt_succ 1)) hshort
    · exact absurd (Nat.lt_succ_self 2) hshort
    · exact ⟨b₀, b₁, b₂, content, rfl⟩
  rw [blockEnd_cons hfits]
  by_cases hreserved : headerValue b₀ b₁ b₂ / 2 % 4 = 3
  · exact Or.inr ⟨_, by rw [if_pos hreserved]⟩
  by_cases hcontent : content.length < occupied (headerValue b₀ b₁ b₂)
  · exact Or.inr ⟨_, by rw [if_neg hreserved, if_pos hcontent]⟩
  · left
    refine ⟨_, b₀ :: b₁ :: b₂ :: content.take (occupied (headerValue b₀ b₁ b₂)),
      content.drop (occupied (headerValue b₀ b₁ b₂)), ?_, Block.mk hreserved ?_⟩
    · rw [List.cons_append, List.cons_append, List.cons_append, List.take_append_drop]
    · rw [List.length_take]
      omega

/-! ### The blocks of a frame -/

theorem blocksEnd_last (h : blockEnd width body start = .ok (.ok (true, stop))) :
    blocksEnd width body start = .ok (.ok stop) := by
  rw [blocksEnd]
  split
  all_goals
    rename_i h'
    rw [h] at h'
    cases h'
  rfl

theorem blocksEnd_more (h : blockEnd width body start = .ok (.ok (false, stop))) :
    blocksEnd width body start = blocksEnd width body stop := by
  rw [blocksEnd]
  split
  all_goals
    rename_i h'
    rw [h] at h'
    cases h'
  rfl

theorem blocksEnd_error {e : FrameError} (h : blockEnd width body start = .ok (.error e)) :
    blocksEnd width body start = .ok (.error e) := by
  rw [blocksEnd]
  split
  all_goals
    rename_i h'
    rw [h] at h'
    cases h'
  rfl

theorem blocksEnd_blocks {blocks : Bytes} (h : Blocks blocks)
    (hfits : (front ++ (blocks ++ rest)).length ≤ width.maxInt) :
    blocksEnd width (front ++ (blocks ++ rest)) front.length =
      .ok (.ok (front ++ blocks).length) := by
  induction h generalizing front with
  | last hblock => exact blocksEnd_last (blockEnd_block hblock hfits)
  | @more block tail hblock htail ih =>
    rw [List.append_assoc] at hfits ⊢
    rw [blocksEnd_more (blockEnd_block hblock hfits)]
    rw [← List.append_assoc front] at hfits ⊢
    rw [ih hfits, List.append_assoc]

/-- The bytes behind a position start with blocks, or the loop ends with an error. -/
theorem blocks_or_error (hfits : (front ++ rest).length ≤ width.maxInt) :
    (∃ blocks tail, rest = blocks ++ tail ∧ Blocks blocks) ∨
      ∃ e, blocksEnd width (front ++ rest) front.length = .ok (.error e) := by
  induction hn : rest.length using Nat.strong_induction_on generalizing front rest with
  | _ n ih =>
    rcases block_or_error hfits with ⟨last, block, tail, rfl, hblock⟩ | ⟨e, herror⟩
    · cases last with
      | true => exact Or.inl ⟨block, tail, rfl, Blocks.last hblock⟩
      | false =>
        have hpos := hblock.length_pos
        rw [List.length_append] at hn
        have hnext := blocksEnd_more (blockEnd_block hblock hfits)
        rw [← List.append_assoc] at hfits hnext ⊢
        rcases ih tail.length (by omega) hfits rfl with ⟨blocks, more, rfl, hblocks⟩ | ⟨e, herror⟩
        · exact Or.inl ⟨block ++ blocks, more, by rw [List.append_assoc], Blocks.more hblock hblocks⟩
        · exact Or.inr ⟨e, by rw [hnext, herror]⟩
    · exact Or.inr ⟨e, blocksEnd_error herror⟩

/-! ### The frame -/

section Frames

variable {header : Header}

theorem checksumEnd_checksum {checksum : Bytes}
    (size : checksum.length = if header.hasCheckSum then 4 else 0)
    (hfits : (front ++ (checksum ++ rest)).length ≤ width.maxInt) :
    checksumEnd width (front ++ (checksum ++ rest)) header front.length =
      .ok (.ok (front ++ checksum).length) := by
  rw [List.length_append, List.length_append] at hfits
  rw [checksumEnd, List.length_append, List.length_append, List.length_append]
  split at size
  · rename_i hsum
    rw [if_pos hsum, checked_of_le (by omega) (by omega), ok_bind, if_neg (by omega),
      checked_of_le (by omega) (by omega), ok_bind, size]
    rfl
  · rename_i hsum
    rw [if_neg hsum, size]
    rfl

theorem checksum_or_error (header : Header) (hfits : (front ++ rest).length ≤ width.maxInt) :
    (∃ checksum tail, rest = checksum ++ tail ∧
        checksum.length = if header.hasCheckSum then 4 else 0) ∨
      ∃ e, checksumEnd width (front ++ rest) header front.length = .ok (.error e) := by
  by_cases hsum : header.hasCheckSum = true
  · by_cases hshort : rest.length < 4
    · right
      rw [List.length_append] at hfits
      rw [checksumEnd, if_pos hsum, List.length_append, checked_of_le (by omega) (by omega),
        ok_bind, if_pos (by omega)]
      exact ⟨_, rfl⟩
    · left
      refine ⟨rest.take 4, rest.drop 4, (List.take_append_drop 4 rest).symm, ?_⟩
      rw [if_pos hsum, List.length_take]
      omega
  · exact Or.inl ⟨[], rest, rfl, by rw [if_neg hsum]; rfl⟩

theorem standardFrame_frame {blocks checksum : Bytes}
    (hfront : front.length = header.headerSize) (hblocks : Blocks blocks)
    (size : checksum.length = if header.hasCheckSum then 4 else 0)
    (hfits : (front ++ (blocks ++ (checksum ++ rest))).length ≤ width.maxInt) :
    standardFrame width (front ++ (blocks ++ (checksum ++ rest))) header =
      .ok (.ok (front ++ (blocks ++ checksum))) := by
  rw [standardFrame, ← hfront, blocksEnd_blocks hblocks hfits, ok_bind]
  dsimp only
  rw [← List.append_assoc front] at hfits ⊢
  rw [checksumEnd_checksum size hfits, ok_bind]
  dsimp only
  rw [← List.append_assoc _ checksum, sliceTo_append rfl, List.append_assoc front]
  rfl

theorem standardFrame_or_error (hfront : front.length = header.headerSize)
    (hfits : (front ++ rest).length ≤ width.maxInt) :
    (∃ blocks checksum tail, rest = blocks ++ (checksum ++ tail) ∧ Blocks blocks ∧
        checksum.length = if header.hasCheckSum then 4 else 0) ∨
      ∃ e, standardFrame width (front ++ rest) header = .ok (.error e) := by
  rcases blocks_or_error hfits with ⟨blocks, tail, rfl, hblocks⟩ | ⟨e, herror⟩
  · have hloop := blocksEnd_blocks hblocks hfits
    have hfits' := hfits
    rw [← List.append_assoc] at hfits'
    rcases checksum_or_error header hfits' with ⟨checksum, more, rfl, size⟩ | ⟨e, herror⟩
    · exact Or.inl ⟨blocks, checksum, more, rfl, hblocks, size⟩
    · right
      rw [List.append_assoc] at herror
      rw [standardFrame, ← hfront, hloop, ok_bind]
      dsimp only
      rw [herror, ok_bind]
      exact ⟨e, rfl⟩
  · right
    rw [standardFrame, ← hfront, herror, ok_bind]
    exact ⟨e, rfl⟩

theorem uint64_of_le (width : IntSize) {n : ℕ} (h : n ≤ width.maxInt) : uint64 n = n := by
  have hmax := maxInt_lt width
  rw [uint64, Int.emod_eq_of_lt (by omega) (by omega), Int.toNat_natCast]

theorem skippableFrame_frame {content : Bytes} (hfront : front.length = header.headerSize)
    (size : content.length = header.skippableSize.toNat)
    (hfits : (front ++ (content ++ rest)).length ≤ width.maxInt) :
    skippableFrame width (front ++ (content ++ rest)) header = .ok (.ok (front ++ content)) := by
  have hleft : ((front ++ (content ++ rest)).length : ℤ) - header.headerSize =
      (content ++ rest).length := by
    rw [List.length_append, ← hfront]
    omega
  rw [List.length_append, List.length_append] at hfits
  rw [skippableFrame, hleft, List.length_append, checked_of_le (by omega) (by omega), ok_bind,
    uint64_of_le width (by omega), if_neg (by omega),
    checked_of_le (by omega) (by omega), ok_bind, checked_of_le (by omega) (by omega), ok_bind,
    ← List.append_assoc, sliceTo_append (by rw [List.length_append]; omega), ok_bind]
  rfl

theorem skippableFrame_or_error (hfront : front.length = header.headerSize)
    (hfits : (front ++ rest).length ≤ width.maxInt) :
    (∃ content tail, rest = content ++ tail ∧ content.length = header.skippableSize.toNat) ∨
      ∃ e, skippableFrame width (front ++ rest) header = .ok (.error e) := by
  by_cases hshort : rest.length < header.skippableSize.toNat
  · right
    have hleft : ((front ++ rest).length : ℤ) - header.headerSize = rest.length := by
      rw [List.length_append, ← hfront]
      omega
    rw [List.length_append] at hfits
    rw [skippableFrame, hleft, checked_of_le (by omega) (by omega), ok_bind,
      uint64_of_le width (by omega), if_pos hshort]
    exact ⟨_, rfl⟩
  · left
    refine ⟨rest.take header.skippableSize.toNat, rest.drop header.skippableSize.toNat,
      (List.take_append_drop _ rest).symm, ?_⟩
    rw [List.length_take]
    omega

variable {decoder : HeaderDecoder}

/-- A frame at the front is returned, whatever follows it. -/
theorem firstZstdFrame_frame {frame : Bytes} (h : Frame header frame)
    (hdecode : decoder.decode (frame ++ rest) = .ok header)
    (hfits : (frame ++ rest).length ≤ width.maxInt) :
    firstZstdFrame width (frame ++ rest) decoder = .ok (.ok frame) := by
  rw [firstZstdFrame, hdecode]
  dsimp only
  cases h with
  | skippable kind hfront size =>
    rw [List.append_assoc] at hfits ⊢
    rw [if_pos kind, skippableFrame_frame hfront size hfits]
  | standard kind hfront hblocks size =>
    rw [List.append_assoc, List.append_assoc] at hfits ⊢
    rw [kind, if_neg Bool.false_ne_true, standardFrame_frame hfront hblocks size hfits]

theorem firstZstdFrame_self {frame : Bytes} (h : Frame header frame)
    (hdecode : decoder.decode frame = .ok header) (hfits : frame.length ≤ width.maxInt) :
    firstZstdFrame width frame decoder = .ok (.ok frame) := by
  rw [← List.append_nil frame] at hdecode hfits
  have hwhole := firstZstdFrame_frame h hdecode hfits
  rwa [List.append_nil] at hwhole

theorem frame_or_error (hdecode : decoder.decode body = .ok header)
    (hsize : header.headerSize ≤ body.length) (hfits : body.length ≤ width.maxInt) :
    (∃ frame rest, body = frame ++ rest ∧ Frame header frame) ∨
      ∃ e, firstZstdFrame width body decoder = .ok (.error e) := by
  have hfront : (body.take header.headerSize).length = header.headerSize := by
    rw [List.length_take]
    omega
  rw [firstZstdFrame, hdecode]
  dsimp only
  rw [← List.take_append_drop header.headerSize body] at hfits
  by_cases kind : header.skippable = true
  · rw [if_pos kind]
    rcases skippableFrame_or_error hfront hfits with ⟨content, tail, hdrop, size⟩ | ⟨e, herror⟩
    · left
      refine ⟨_, tail, ?_, Frame.skippable kind hfront size⟩
      rw [List.append_assoc, ← hdrop, List.take_append_drop]
    · rw [List.take_append_drop] at herror
      exact Or.inr ⟨e, herror⟩
  · rw [if_neg kind]
    rcases standardFrame_or_error hfront hfits with
      ⟨blocks, checksum, tail, hdrop, hblocks, size⟩ | ⟨e, herror⟩
    · left
      refine ⟨_, tail, ?_, Frame.standard (Bool.eq_false_iff.mpr kind) hfront hblocks size⟩
      rw [List.append_assoc, List.append_assoc, ← hdrop, List.take_append_drop]
    · rw [List.take_append_drop] at herror
      exact Or.inr ⟨e, herror⟩

/-- The scan ends without a fault and returns the first frame exactly when the bytes hold
one; bytes behind a frame do not change the result. -/
theorem firstZstdFrame_exact (hdecode : decoder.decode body = .ok header)
    (hsize : header.headerSize ≤ body.length) (hfits : body.length ≤ width.maxInt) :
    ∃ result, firstZstdFrame width body decoder = .ok result ∧
      (∀ frame, result = .ok frame ↔ Frame header frame ∧ ∃ rest, body = frame ++ rest) ∧
      ∀ frame, result = .ok frame → ∀ more, (body ++ more).length ≤ width.maxInt →
        firstZstdFrame width (body ++ more) decoder = .ok (.ok frame) := by
  have hcomplete : ∀ frame, (Frame header frame ∧ ∃ rest, body = frame ++ rest) →
      firstZstdFrame width body decoder = .ok (.ok frame) := by
    intro frame h
    obtain ⟨hframe, rest, hbody⟩ := h
    rw [hbody] at hdecode hfits ⊢
    exact firstZstdFrame_frame hframe hdecode hfits
  have hmore : ∀ frame more, (Frame header frame ∧ ∃ rest, body = frame ++ rest) →
      (body ++ more).length ≤ width.maxInt →
      firstZstdFrame width (body ++ more) decoder = .ok (.ok frame) := by
    intro frame more h hfits'
    obtain ⟨hframe, rest, hbody⟩ := h
    have hsame : decoder.decode (body ++ more) = .ok header := by
      apply decoder.dependsOnHeader body header hdecode hsize
      · exact List.take_append_of_le_length hsize
      · rw [List.length_append]
        omega
    rw [hbody, List.append_assoc] at hsame hfits' ⊢
    exact firstZstdFrame_frame hframe hsame hfits'
  rcases frame_or_error hdecode hsize hfits with ⟨frame, rest, hbody, hframe⟩ | ⟨e, herror⟩
  · have hresult := hcomplete frame ⟨hframe, rest, hbody⟩
    refine ⟨_, hresult, ?_, ?_⟩
    · intro other
      constructor
      · intro h
        cases h
        exact ⟨hframe, rest, hbody⟩
      · intro h
        exact Except.ok.inj (hresult.symm.trans (hcomplete other h))
    · intro other h
      cases h
      exact fun more => hmore frame more ⟨hframe, rest, hbody⟩
  · refine ⟨_, herror, ?_, ?_⟩
    · intro frame
      constructor
      · intro h
        cases h
      · intro h
        exact Except.ok.inj (herror.symm.trans (hcomplete frame h))
    · intro frame h
      cases h

end Frames

end Positions

/-- A decoder that accepts one header: the magic number, no flags and a window size. -/
def plainHeaders : HeaderDecoder where
  decode body :=
    if body.take 6 = [0x28, 0xB5, 0x2F, 0xFD, 0x00, 0x58] then .ok ⟨6, false, 0, false⟩
    else .error "invalid input: magic number mismatch"
  dependsOnHeader := by
    intro body header h hsize other htake hlength
    split at h
    · rename_i hmagic
      cases h
      rw [if_pos (htake.trans hmagic)]
    · cases h

theorem firstZstdFrame_exact_plain :
    ∃ result, firstZstdFrame .bits64
        [0x28, 0xB5, 0x2F, 0xFD, 0x00, 0x58, 0x09, 0x00, 0x00, 0x41, 0x7F] plainHeaders = .ok result ∧
      (∀ frame, result = .ok frame ↔ Frame ⟨6, false, 0, false⟩ frame ∧ ∃ rest,
        [0x28, 0xB5, 0x2F, 0xFD, 0x00, 0x58, 0x09, 0x00, 0x00, 0x41, 0x7F] = frame ++ rest) ∧
      ∀ frame, result = .ok frame → ∀ more,
        ([0x28, 0xB5, 0x2F, 0xFD, 0x00, 0x58, 0x09, 0x00, 0x00, 0x41, 0x7F] ++ more).length ≤
            IntSize.bits64.maxInt →
        firstZstdFrame .bits64
          ([0x28, 0xB5, 0x2F, 0xFD, 0x00, 0x58, 0x09, 0x00, 0x00, 0x41, 0x7F] ++ more)
          plainHeaders = .ok (.ok frame) :=
  firstZstdFrame_exact (by rfl) (by decide) (by decide)

end DialCache.ZstdFrames
