import Mathlib.Data.List.Basic
import DialCache.UnicodeText

/-!
# The grammar of JSON texts

A JSON text is derived together with the string literals that stand in it, member names
included. A literal is a list of elements: bytes that stand for themselves, short escapes
and escapes of one UTF-16 code unit. For a scan only the literals matter: between them a
text has neither quotes nor backslashes (`Pieces`).
-/

namespace DialCache.JsonGrammar

def quote : UInt8 := 0x22

def backslash : UInt8 := 0x5C

/-- The value of a hexadecimal digit. -/
def hexDigit (b : UInt8) : Option ℕ :=
  if 0x30 ≤ b.toNat ∧ b.toNat ≤ 0x39 then some (b.toNat - 0x30)
  else if 0x61 ≤ b.toNat ∧ b.toNat ≤ 0x66 then some (b.toNat - 0x61 + 10)
  else if 0x41 ≤ b.toNat ∧ b.toNat ≤ 0x46 then some (b.toNat - 0x41 + 10)
  else none

/-- The bytes behind the backslash of a short escape: quote, backslash, slash, b, f, n, r, t. -/
def shortEscapes : Bytes := [0x22, 0x5C, 0x2F, 0x62, 0x66, 0x6E, 0x72, 0x74]

/-- A hexadecimal digit and its value. -/
structure HexDigit where
  byte : UInt8
  value : ℕ
  valid : hexDigit byte = some value

theorem HexDigit.value_lt (d : HexDigit) : d.value < 16 := by
  have h := d.valid
  unfold hexDigit at h
  split at h
  · have hvalue := Option.some.inj h
    omega
  split at h
  · have hvalue := Option.some.inj h
    omega
  split at h
  · have hvalue := Option.some.inj h
    omega
  · cases h

/-- One element between the quotes of a literal. -/
inductive Element
  | plain (b : UInt8) (printable : 0x20 ≤ b.toNat) (noQuote : b ≠ quote) (noEscape : b ≠ backslash)
  | short (b : UInt8) (known : b ∈ shortEscapes)
  | unit (d₀ d₁ d₂ d₃ : HexDigit)

namespace Element

def bytes : Element → Bytes
  | plain b _ _ _ => [b]
  | short b _ => [backslash, b]
  | unit d₀ d₁ d₂ d₃ => [backslash, 0x75, d₀.byte, d₁.byte, d₂.byte, d₃.byte]

/-- The code unit of an escape. -/
def codeUnit : Element → Option ℕ
  | plain _ _ _ _ => none
  | short _ _ => none
  | unit d₀ d₁ d₂ d₃ => some (((d₀.value * 16 + d₁.value) * 16 + d₂.value) * 16 + d₃.value)

/-- An escaped first half of a surrogate pair. -/
def IsHigh (e : Element) : Prop := ∃ u, e.codeUnit = some u ∧ 0xD800 ≤ u ∧ u ≤ 0xDBFF

/-- An escaped second half of a surrogate pair. -/
def IsLow (e : Element) : Prop := ∃ u, e.codeUnit = some u ∧ 0xDC00 ≤ u ∧ u ≤ 0xDFFF

end Element

abbrev Literal := List Element

namespace Literal

def inner (s : Literal) : Bytes := s.flatMap Element.bytes

def bytes (s : Literal) : Bytes := quote :: (inner s ++ [quote])

/-- A surrogate escape that is not half of a pair of neighbouring escapes. -/
def IsolatedAt (s : Literal) (k : ℕ) : Prop :=
  (∃ e, s[k]? = some e ∧ e.IsHigh ∧ ¬ ∃ f, s[k + 1]? = some f ∧ f.IsLow) ∨
    ∃ e, s[k]? = some e ∧ e.IsLow ∧ ¬ ∃ j f, k = j + 1 ∧ s[j]? = some f ∧ f.IsHigh

def Isolated (s : Literal) : Prop := ∃ k, s.IsolatedAt k

end Literal

/-! ### Texts -/

def IsSpace (ws : Bytes) : Prop := ∀ b ∈ ws, b = 0x20 ∨ b = 0x09 ∨ b = 0x0A ∨ b = 0x0D

def IsDigits (ds : Bytes) : Prop := ds ≠ [] ∧ ∀ b ∈ ds, 0x30 ≤ b.toNat ∧ b.toNat ≤ 0x39

def IsSign (sign : Bytes) : Prop := sign = [] ∨ sign = [0x2B] ∨ sign = [0x2D]

/-- A number: an integer without leading zeros, a fraction and an exponent. -/
structure IsNumber (number : Bytes) : Prop where
  split : ∃ minus whole fraction exponent, number = minus ++ (whole ++ (fraction ++ exponent)) ∧
    (minus = [] ∨ minus = [0x2D]) ∧
    (IsDigits whole ∧ (whole = [0x30] ∨ whole.head? ≠ some 0x30)) ∧
    (fraction = [] ∨ ∃ ds, fraction = 0x2E :: ds ∧ IsDigits ds) ∧
    (exponent = [] ∨ ∃ e sign ds, exponent = e :: (sign ++ ds) ∧ (e = 0x65 ∨ e = 0x45) ∧
      IsSign sign ∧ IsDigits ds)

inductive Nonterminal
  | value
  | items
  | members
  deriving DecidableEq, Repr

/-- The bytes `null`, `true` and `false`. -/
def words : List Bytes :=
  [[0x6E, 0x75, 0x6C, 0x6C], [0x74, 0x72, 0x75, 0x65], [0x66, 0x61, 0x6C, 0x73, 0x65]]

/-- Derivations of the grammar, with the literals in the derived bytes. -/
inductive Derives : Nonterminal → Bytes → List Literal → Prop
  | word {w : Bytes} (h : w ∈ words) : Derives .value w []
  | number {n : Bytes} (h : IsNumber n) : Derives .value n []
  | string (s : Literal) : Derives .value s.bytes [s]
  | emptyArray {ws : Bytes} (h : IsSpace ws) : Derives .value (0x5B :: (ws ++ [0x5D])) []
  | array {items : Bytes} {found : List Literal} (h : Derives .items items found) :
      Derives .value (0x5B :: (items ++ [0x5D])) found
  | emptyObject {ws : Bytes} (h : IsSpace ws) : Derives .value (0x7B :: (ws ++ [0x7D])) []
  | object {members : Bytes} {found : List Literal} (h : Derives .members members found) :
      Derives .value (0x7B :: (members ++ [0x7D])) found
  | lastItem {ws item ws' : Bytes} {found : List Literal} (h : IsSpace ws) (h' : IsSpace ws')
      (hitem : Derives .value item found) : Derives .items (ws ++ (item ++ ws')) found
  | item {ws item ws' rest : Bytes} {found others : List Literal} (h : IsSpace ws)
      (h' : IsSpace ws') (hitem : Derives .value item found) (hrest : Derives .items rest others) :
      Derives .items (ws ++ (item ++ (ws' ++ 0x2C :: rest))) (found ++ others)
  | lastMember {ws₀ ws₁ ws₂ ws₃ value : Bytes} (name : Literal) {found : List Literal}
      (h₀ : IsSpace ws₀) (h₁ : IsSpace ws₁) (h₂ : IsSpace ws₂) (h₃ : IsSpace ws₃)
      (hvalue : Derives .value value found) :
      Derives .members (ws₀ ++ (name.bytes ++ (ws₁ ++ 0x3A :: (ws₂ ++ (value ++ ws₃)))))
        (name :: found)
  | member {ws₀ ws₁ ws₂ ws₃ value rest : Bytes} (name : Literal) {found others : List Literal}
      (h₀ : IsSpace ws₀) (h₁ : IsSpace ws₁) (h₂ : IsSpace ws₂) (h₃ : IsSpace ws₃)
      (hvalue : Derives .value value found) (hrest : Derives .members rest others) :
      Derives .members
        (ws₀ ++ (name.bytes ++ (ws₁ ++ 0x3A :: (ws₂ ++ (value ++ (ws₃ ++ 0x2C :: rest))))))
        (name :: (found ++ others))

/-- A JSON text and its literals. -/
def IsText (text : Bytes) (found : List Literal) : Prop :=
  ∃ ws value ws', text = ws ++ (value ++ ws') ∧ IsSpace ws ∧ IsSpace ws' ∧
    Derives .value value found

/-! ### Literals and what stands between them -/

/-- A byte that neither opens a literal nor escapes. -/
def Outside (b : UInt8) : Prop := b ≠ quote ∧ b ≠ backslash

instance : DecidablePred Outside := fun b => inferInstanceAs (Decidable (b ≠ quote ∧ b ≠ backslash))

inductive Pieces : Bytes → List Literal → Prop
  | nil : Pieces [] []
  | outside {b : UInt8} {rest : Bytes} {found : List Literal} (h : Outside b)
      (tail : Pieces rest found) : Pieces (b :: rest) found
  | literal (s : Literal) {rest : Bytes} {found : List Literal} (tail : Pieces rest found) :
      Pieces (s.bytes ++ rest) (s :: found)

variable {bs : Bytes} {found : List Literal}

namespace Pieces

theorem append {cs : Bytes} {others : List Literal} (h : Pieces bs found)
    (h' : Pieces cs others) : Pieces (bs ++ cs) (found ++ others) := by
  induction h with
  | nil => exact h'
  | outside hb _ ih => exact outside hb ih
  | literal s _ ih =>
    rw [List.append_assoc, List.cons_append]
    exact literal s ih

theorem between (h : ∀ b ∈ bs, Outside b) : Pieces bs [] := by
  induction bs with
  | nil => exact nil
  | cons b bs ih =>
    apply outside (h b List.mem_cons_self)
    exact ih (fun c hc => h c (List.mem_cons_of_mem b hc))

theorem single (s : Literal) : Pieces s.bytes [s] := by
  have h := literal s nil
  rwa [List.append_nil] at h

theorem space {ws : Bytes} (h : IsSpace ws) : Pieces ws [] := by
  apply between
  intro b hb
  rcases h b hb with rfl | rfl | rfl | rfl <;> decide

end Pieces

theorem outside_digit {b : UInt8} (h : 0x30 ≤ b.toNat ∧ b.toNat ≤ 0x39) : Outside b := by
  constructor
  · rintro rfl
    exact absurd h (by decide)
  · rintro rfl
    exact absurd h (by decide)

theorem IsNumber.outside {number : Bytes} (h : IsNumber number) : ∀ b ∈ number, Outside b := by
  obtain ⟨minus, whole, fraction, exponent, rfl, hminus, hwhole, hfraction, hexponent⟩ := h.split
  simp only [List.forall_mem_append]
  refine ⟨?_, fun b hb => outside_digit (hwhole.1.2 b hb), ?_, ?_⟩
  · rcases hminus with rfl | rfl
    · exact List.forall_mem_nil _
    · exact List.forall_mem_singleton.mpr (by decide)
  · rcases hfraction with rfl | ⟨ds, rfl, hds⟩
    · exact List.forall_mem_nil _
    · exact List.forall_mem_cons.mpr
        ⟨by decide, fun b hb => outside_digit (hds.2 b hb)⟩
  · rcases hexponent with rfl | ⟨e, sign, ds, rfl, he, hsign, hds⟩
    · exact List.forall_mem_nil _
    · refine List.forall_mem_cons.mpr ⟨?_, List.forall_mem_append.mpr
        ⟨?_, fun b hb => outside_digit (hds.2 b hb)⟩⟩
      · rcases he with rfl | rfl <;> decide
      · rcases hsign with rfl | rfl | rfl
        · exact List.forall_mem_nil _
        · exact List.forall_mem_singleton.mpr (by decide)
        · exact List.forall_mem_singleton.mpr (by decide)

theorem outside_word {w : Bytes} (h : w ∈ words) : ∀ b ∈ w, Outside b := by
  rw [words, List.mem_cons, List.mem_cons, List.mem_singleton] at h
  rcases h with rfl | rfl | rfl <;> simp [Outside, quote, backslash]

/-- What the grammar derives is cut by its literals. -/
theorem pieces_of_derives {n : Nonterminal} (h : Derives n bs found) : Pieces bs found := by
  have hone : ∀ {b : UInt8}, Outside b → ∀ {rest found}, Pieces rest found →
      Pieces (b :: rest) found := fun hb _ _ htail => Pieces.outside hb htail
  induction h with
  | word hw => exact Pieces.between (outside_word hw)
  | number hn => exact Pieces.between hn.outside
  | string s => exact Pieces.single s
  | emptyArray hws =>
    exact hone (by decide) ((Pieces.space hws).append
      (hone (by decide) Pieces.nil))
  | array _ ih =>
    have hclose := ih.append (hone (b := 0x5D) (by decide) Pieces.nil)
    rw [List.append_nil] at hclose
    exact hone (by decide) hclose
  | emptyObject hws =>
    exact hone (by decide) ((Pieces.space hws).append
      (hone (by decide) Pieces.nil))
  | object _ ih =>
    have hclose := ih.append (hone (b := 0x7D) (by decide) Pieces.nil)
    rw [List.append_nil] at hclose
    exact hone (by decide) hclose
  | lastItem hws hws' _ ih =>
    have hafter := ih.append (Pieces.space hws')
    rw [List.append_nil] at hafter
    exact (Pieces.space hws).append hafter
  | item hws hws' _ _ ih ihrest =>
    exact (Pieces.space hws).append (ih.append ((Pieces.space hws').append
      (hone (by decide) ihrest)))
  | lastMember name h₀ h₁ h₂ h₃ _ ih =>
    have hafter := ih.append (Pieces.space h₃)
    rw [List.append_nil] at hafter
    exact (Pieces.space h₀).append ((Pieces.single name).append ((Pieces.space h₁).append
      (hone (by decide) ((Pieces.space h₂).append hafter))))
  | member name h₀ h₁ h₂ h₃ _ _ ih ihrest =>
    exact (Pieces.space h₀).append ((Pieces.single name).append ((Pieces.space h₁).append
      (hone (by decide) ((Pieces.space h₂).append (ih.append ((Pieces.space h₃).append
        (hone (by decide) ihrest)))))))

theorem pieces_of_isText {text : Bytes} (h : IsText text found) : Pieces text found := by
  obtain ⟨ws, value, ws', rfl, hws, hws', hvalue⟩ := h
  have hafter := (pieces_of_derives hvalue).append (Pieces.space hws')
  rw [List.append_nil] at hafter
  exact (Pieces.space hws).append hafter

end DialCache.JsonGrammar
