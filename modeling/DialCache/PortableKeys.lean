import Mathlib.Data.List.Infix
import DialCache.CacheKeys

/-!
# The portable key scheme

The names that every port derives from one logical identity, on Unicode scalar text. Each
component is percent-escaped byte by byte, so that the delimiters between components occur
nowhere inside them and a name can be read back in one way only.
-/

namespace DialCache.PortableKeys

open UnicodeText CacheKeys

/-- Text as a list of Unicode scalars. -/
abbrev Text := List Char

/-- A logical identity over the strings of a host language. -/
structure Identity (σ : Type) where
  cacheNamespace : σ
  keyType : σ
  id : σ
  args : List (σ × σ)
  useCase : σ
  tracked : Bool
deriving DecidableEq

/-- The names derived from an identity. -/
structure KeyNames (τ : Type) where
  logical : τ
  value : τ
  watermark : Option τ
deriving DecidableEq

def KeyNames.map {τ υ : Type} (f : τ → υ) (names : KeyNames τ) : KeyNames υ :=
  ⟨f names.logical, f names.value, names.watermark.map f⟩

def Identity.map {σ τ : Type} (f : σ → τ) (identity : Identity σ) : Identity τ where
  cacheNamespace := f identity.cacheNamespace
  keyType := f identity.keyType
  id := f identity.id
  args := identity.args.map fun arg => (f arg.1, f arg.2)
  useCase := f identity.useCase
  tracked := identity.tracked

/-- Every component of an identity. -/
def Identity.components {σ : Type} (identity : Identity σ) : List σ :=
  [identity.cacheNamespace, identity.keyType, identity.id, identity.useCase] ++
    identity.args.flatMap fun arg => [arg.1, arg.2]

/-! ### Escaping -/

def hexChar (n : ℕ) : Char := Char.ofNat (if n < 10 then 48 + n else 55 + n)

def escapeByte (b : UInt8) : Text :=
  if isUnreserved b then [Char.ofNat b.toNat]
  else ['%', hexChar (b.toNat / 16), hexChar (b.toNat % 16)]

def escape (component : Text) : Text := (encodeUtf8 component).flatMap escapeByte

/-- The characters of escaped text. -/
def isEscaped (c : Char) : Bool := c = '%' ∨ (c.toNat < 256 ∧ isUnreserved (UInt8.ofNat c.toNat))

def entity (cacheNamespace keyType id : Text) : Text :=
  escape cacheNamespace ++ ':' :: (escape keyType ++ ':' :: escape id)

def escapedArg (arg : Text × Text) : Text := escape arg.1 ++ '=' :: escape arg.2

def query : List (Text × Text) → Text
  | [] => []
  | arg :: args => '?' :: (escapedArg arg ++ args.flatMap fun arg => '&' :: escapedArg arg)

def hashTagged (entity : Text) : Text := '{' :: (entity ++ ['}'])

variable (identity : Identity Text)

def namePrefix : Text :=
  let entity := entity identity.cacheNamespace identity.keyType identity.id
  if identity.tracked then hashTagged entity else entity

def logicalName : Text :=
  namePrefix identity ++ (query identity.args ++ '#' :: escape identity.useCase)

def frameSuffix : Text := ":dialcache-frame-v1".toList

def watermarkSuffix : Text := "#watermark".toList

def watermarkName (cacheNamespace keyType id : Text) : Text :=
  hashTagged (entity cacheNamespace keyType id) ++ watermarkSuffix

def isBraced (component : Text) : Bool := component.contains '{' || component.contains '}'

/-- Braces are refused where they would end up inside a hash tag. -/
def accepts : Bool :=
  !isBraced identity.cacheNamespace &&
    !(identity.tracked && (isBraced identity.keyType || isBraced identity.id))

def keys : Option (KeyNames Text) :=
  if accepts identity then
    some {
      logical := logicalName identity
      value := logicalName identity ++ frameSuffix
      watermark := if identity.tracked then
        some (watermarkName identity.cacheNamespace identity.keyType identity.id) else none }
  else none

/-- The text between the first opening brace and the first closing brace after it, if there
is any: what a Redis cluster hashes instead of the whole key. -/
def hashTag {β : Type} [DecidableEq β] (opening closing : β) (key : List β) : Option (List β) :=
  let rest := (key.dropWhile (· ≠ opening)).tail
  let tag := rest.takeWhile (· ≠ closing)
  if closing ∈ rest ∧ tag ≠ [] then some tag else none

/-! ### Unique reading -/

/-- A block of marked items is followed by an unmarked one in one way only. -/
theorem append_inj_of_marked {α : Type} {marked : α → Bool} {a a' r r' : List α}
    (ha : ∀ x ∈ a, marked x = true) (ha' : ∀ x ∈ a', marked x = true)
    (hr : ∀ x ∈ r.head?, marked x = false) (hr' : ∀ x ∈ r'.head?, marked x = false)
    (h : a ++ r = a' ++ r') : a = a' ∧ r = r' := by
  induction a generalizing a' with
  | nil =>
    cases a' with
    | nil => exact ⟨rfl, h⟩
    | cons x xs =>
      have hx := ha' x List.mem_cons_self
      rw [List.nil_append] at h
      rw [hr x (by simp [h])] at hx
      cases hx
  | cons x xs ih =>
    cases a' with
    | nil =>
      have hx := ha x List.mem_cons_self
      rw [List.nil_append] at h
      rw [hr' x (by simp [← h])] at hx
      cases hx
    | cons y ys =>
      obtain ⟨rfl, htail⟩ := List.cons.inj h
      obtain ⟨rfl, hrest⟩ := ih (fun z hz => ha z (List.mem_cons_of_mem _ hz))
        (fun z hz => ha' z (List.mem_cons_of_mem _ hz)) htail
      exact ⟨rfl, hrest⟩

theorem isUnreserved_lt {b : UInt8} (h : isUnreserved b = true) : b.toNat < 128 := by
  simp only [isUnreserved, List.contains_eq_mem, Bool.or_eq_true, Bool.and_eq_true,
    decide_eq_true_eq, List.mem_cons, List.not_mem_nil, or_false] at h
  omega

variable {n : ℕ}

theorem toNat_char_of_lt (h : n < 128) : (Char.ofNat n).toNat = n :=
  toNat_ofNat_of_lt (by omega)

theorem toNat_hexChar (h : n < 16) : (hexChar n).toNat = if n < 10 then 48 + n else 55 + n := by
  apply toNat_ofNat_of_lt
  split <;> omega

theorem hexChar_inj {m : ℕ} (hm : m < 16) (hn : n < 16) (h : hexChar m = hexChar n) : m = n := by
  have hnat := congrArg Char.toNat h
  rw [toNat_hexChar hm, toNat_hexChar hn] at hnat
  split at hnat <;> split at hnat <;> omega

theorem isUnreserved_hexDigit (h : n < 16) :
    isUnreserved (UInt8.ofNat (if n < 10 then 48 + n else 55 + n)) = true := by
  have hall : ∀ m < 16, isUnreserved (UInt8.ofNat (if m < 10 then 48 + m else 55 + m)) = true := by
    decide
  exact hall n h

theorem isEscaped_hexChar (h : n < 16) : isEscaped (hexChar n) = true := by
  have hnat := toNat_hexChar h
  have hlt : (hexChar n).toNat < 256 := by
    rw [hnat]
    split <;> omega
  have hdigit := isUnreserved_hexDigit h
  rw [← hnat] at hdigit
  simp [isEscaped, hlt, hdigit]

variable {c : Char}

theorem isEscaped_of_mem_escapeByte {b : UInt8} (h : c ∈ escapeByte b) : isEscaped c = true := by
  have hb := b.toNat_lt
  unfold escapeByte at h
  split at h
  · rename_i hun
    obtain rfl := List.mem_singleton.mp h
    have hnat := toNat_char_of_lt (isUnreserved_lt hun)
    have hlt : b.toNat < 256 := hb
    simp [isEscaped, hnat, hun, hlt]
  · simp only [List.mem_cons, List.not_mem_nil, or_false] at h
    rcases h with rfl | rfl | rfl
    · rfl
    · exact isEscaped_hexChar (by omega)
    · exact isEscaped_hexChar (by omega)

variable {t : Text}

theorem isEscaped_of_mem_escape (h : c ∈ escape t) : isEscaped c = true := by
  obtain ⟨b, -, hb⟩ := List.mem_flatMap.mp h
  exact isEscaped_of_mem_escapeByte hb

variable {r r' : Text}

/-- A byte is read back from its escape, whatever follows. -/
theorem escapeByte_append_inj {b b' : UInt8} (h : escapeByte b ++ r = escapeByte b' ++ r') :
    b = b' ∧ r = r' := by
  have hb := b.toNat_lt
  have hb' := b'.toNat_lt
  have hpercent : ∀ x : UInt8, isUnreserved x = true → Char.ofNat x.toNat ≠ '%' := by
    intro x hx heq
    have hnat := congrArg Char.toNat heq
    rw [toNat_char_of_lt (isUnreserved_lt hx)] at hnat
    have hx37 : x = 37 := UInt8.toNat_inj.mp hnat
    subst hx37
    revert hx
    decide
  unfold escapeByte at h
  split at h <;> split at h <;> rename_i h1 h2
  · obtain ⟨hchar, hrest⟩ := List.cons.inj h
    have hnat := congrArg Char.toNat hchar
    rw [toNat_char_of_lt (isUnreserved_lt h1), toNat_char_of_lt (isUnreserved_lt h2)] at hnat
    exact ⟨UInt8.toNat_inj.mp hnat, hrest⟩
  · exact absurd (List.cons.inj h).1 (hpercent b h1)
  · exact absurd (List.cons.inj h).1.symm (hpercent b' h2)
  · simp only [List.cons_append, List.nil_append, List.cons.injEq, true_and] at h
    obtain ⟨hhigh, hlow, hrest⟩ := h
    have hh := hexChar_inj (by omega) (by omega) hhigh
    have hl := hexChar_inj (by omega) (by omega) hlow
    exact ⟨UInt8.toNat_inj.mp (by omega), hrest⟩

theorem flatMap_escapeByte_inj {bs bs' : Bytes}
    (h : bs.flatMap escapeByte = bs'.flatMap escapeByte) : bs = bs' := by
  have hne : ∀ b, escapeByte b ≠ [] := by
    intro b
    unfold escapeByte
    split <;> simp
  induction bs generalizing bs' with
  | nil =>
    cases bs' with
    | nil => rfl
    | cons b' bs' =>
      rw [List.flatMap_nil, List.flatMap_cons] at h
      exact absurd (List.append_eq_nil_iff.mp h.symm).1 (hne b')
  | cons b bs ih =>
    cases bs' with
    | nil =>
      rw [List.flatMap_nil, List.flatMap_cons] at h
      exact absurd (List.append_eq_nil_iff.mp h).1 (hne b)
    | cons b' bs' =>
      rw [List.flatMap_cons, List.flatMap_cons] at h
      obtain ⟨rfl, hrest⟩ := escapeByte_append_inj h
      rw [ih hrest]

theorem encodeUtf8_inj {t' : Text} (h : encodeUtf8 t = encodeUtf8 t') : t = t' := by
  rw [← decodeUtf8_encodeUtf8 t, h, decodeUtf8_encodeUtf8]

theorem escape_inj {t' : Text} (h : escape t = escape t') : t = t' :=
  encodeUtf8_inj (flatMap_escapeByte_inj h)

/-- An escaped component is read back up to the delimiter that follows it. -/
theorem escape_append_inj {t' : Text} (hr : ∀ c ∈ r.head?, isEscaped c = false)
    (hr' : ∀ c ∈ r'.head?, isEscaped c = false) (h : escape t ++ r = escape t' ++ r') :
    t = t' ∧ r = r' := by
  obtain ⟨hescape, hrest⟩ := append_inj_of_marked (fun _ hc => isEscaped_of_mem_escape hc)
    (fun _ hc => isEscaped_of_mem_escape hc) hr hr' h
  exact ⟨escape_inj hescape, hrest⟩

variable (args : List (Text × Text))

section Reading

variable {n n' k k' i i' r r' : Text}

theorem entity_append_inj (hr : ∀ c ∈ r.head?, isEscaped c = false)
    (hr' : ∀ c ∈ r'.head?, isEscaped c = false) (h : entity n k i ++ r = entity n' k' i' ++ r') :
    (n = n' ∧ k = k' ∧ i = i') ∧ r = r' := by
  have hcolon : ∀ t : Text, ∀ c ∈ (':' :: t).head?, isEscaped c = false := by
    intro t c hc
    obtain rfl : ':' = c := by simpa using hc
    decide
  simp only [entity, List.append_assoc, List.cons_append] at h
  obtain ⟨hn, h⟩ := escape_append_inj (hcolon _) (hcolon _) h
  obtain ⟨hk, h⟩ := escape_append_inj (hcolon _) (hcolon _) (List.cons.inj h).2
  obtain ⟨hi, h⟩ := escape_append_inj hr hr' (List.cons.inj h).2
  exact ⟨⟨hn, hk, hi⟩, h⟩

theorem escapedArg_append_inj {arg arg' : Text × Text} (hr : ∀ c ∈ r.head?, isEscaped c = false)
    (hr' : ∀ c ∈ r'.head?, isEscaped c = false)
    (h : escapedArg arg ++ r = escapedArg arg' ++ r') : arg = arg' ∧ r = r' := by
  have hequals : ∀ t : Text, ∀ c ∈ ('=' :: t).head?, isEscaped c = false := by
    intro t c hc
    obtain rfl : '=' = c := by simpa using hc
    decide
  simp only [escapedArg, List.append_assoc, List.cons_append] at h
  obtain ⟨hname, h⟩ := escape_append_inj (hequals _) (hequals _) h
  obtain ⟨hvalue, h⟩ := escape_append_inj hr hr' (List.cons.inj h).2
  exact ⟨Prod.ext hname hvalue, h⟩

theorem head_furtherArgs (u : Text) : ∀ c ∈
    ((args.flatMap fun arg => '&' :: escapedArg arg) ++ '#' :: u).head?, isEscaped c = false := by
  intro c hc
  cases args with
  | nil =>
    obtain rfl : '#' = c := by simpa using hc
    decide
  | cons arg args =>
    obtain rfl : '&' = c := by simpa using hc
    decide

/-- What follows the first argument: further arguments and the use case. -/
theorem furtherArgs_inj {args args' : List (Text × Text)} {u u' : Text}
    (h : (args.flatMap fun arg => '&' :: escapedArg arg) ++ '#' :: u =
      (args'.flatMap fun arg => '&' :: escapedArg arg) ++ '#' :: u') : args = args' ∧ u = u' := by
  induction args generalizing args' with
  | nil =>
    cases args' with
    | nil => exact ⟨rfl, (List.cons.inj h).2⟩
    | cons arg' args' => exact absurd (List.cons.inj h).1 (by decide)
  | cons arg args ih =>
    cases args' with
    | nil => exact absurd (List.cons.inj h).1 (by decide)
    | cons arg' args' =>
      simp only [List.flatMap_cons, List.cons_append, List.append_assoc] at h
      obtain ⟨rfl, hrest⟩ := escapedArg_append_inj (head_furtherArgs _ _) (head_furtherArgs _ _)
        (List.cons.inj h).2
      obtain ⟨rfl, rfl⟩ := ih hrest
      exact ⟨rfl, rfl⟩

theorem query_append_inj {args args' : List (Text × Text)} {u u' : Text}
    (h : query args ++ '#' :: u = query args' ++ '#' :: u') : args = args' ∧ u = u' := by
  cases args with
  | nil =>
    cases args' with
    | nil => exact ⟨rfl, (List.cons.inj h).2⟩
    | cons arg' args' => exact absurd (List.cons.inj h).1 (by decide)
  | cons arg args =>
    cases args' with
    | nil => exact absurd (List.cons.inj h).1 (by decide)
    | cons arg' args' =>
      simp only [query, List.cons_append, List.append_assoc] at h
      obtain ⟨rfl, hrest⟩ := escapedArg_append_inj (head_furtherArgs _ _) (head_furtherArgs _ _)
        (List.cons.inj h).2
      obtain ⟨rfl, rfl⟩ := furtherArgs_inj hrest
      exact ⟨rfl, rfl⟩

end Reading

/-! ### What the names determine -/

section Names

variable {identity other : Identity Text}

theorem mem_entity {n k i : Text} (h : c ∈ entity n k i) : c = ':' ∨ isEscaped c = true := by
  simp only [entity, List.mem_append, List.mem_cons] at h
  rcases h with h | h | h | h | h
  · exact Or.inr (isEscaped_of_mem_escape h)
  · exact Or.inl h
  · exact Or.inr (isEscaped_of_mem_escape h)
  · exact Or.inl h
  · exact Or.inr (isEscaped_of_mem_escape h)

theorem brace_notMem_entity {n k i : Text} (hc : c = '{' ∨ c = '}') : c ∉ entity n k i := by
  intro h
  rcases hc with rfl | rfl <;> rcases mem_entity h with h | h <;> revert h <;> decide

theorem head_namePrefix_of_untracked (h : identity.tracked = false) :
    (namePrefix identity ++ r).head? ≠ some '{' := by
  intro hhead
  have hne : namePrefix identity ≠ [] := by simp [namePrefix, h, entity]
  rw [List.head?_append_of_ne_nil _ hne] at hhead
  have hmem := List.mem_of_head? hhead
  simp only [namePrefix, h, Bool.false_eq_true, if_false] at hmem
  exact brace_notMem_entity (Or.inl rfl) hmem

theorem head_namePrefix_of_tracked (h : identity.tracked = true) :
    (namePrefix identity ++ r).head? = some '{' := by
  simp [namePrefix, h, hashTagged]

theorem head_query (u : Text) : ∀ c ∈ (query args ++ '#' :: u).head?, isEscaped c = false := by
  intro c hc
  cases args with
  | nil =>
    obtain rfl : '#' = c := by simpa [query] using hc
    decide
  | cons arg args =>
    obtain rfl : '?' = c := by simpa [query] using hc
    decide

/-- A hash-tagged entity is read back, whatever follows its closing brace. -/
theorem hashTagged_append_inj {n n' k k' i i' : Text}
    (h : hashTagged (entity n k i) ++ r = hashTagged (entity n' k' i') ++ r') :
    (n = n' ∧ k = k' ∧ i = i') ∧ r = r' := by
  have hclosing : ∀ t : Text, ∀ c ∈ ('}' :: t).head?, isEscaped c = false := by
    intro t c hc
    obtain rfl : '}' = c := by simpa using hc
    decide
  simp only [hashTagged, List.cons_append, List.append_assoc, List.nil_append] at h
  obtain ⟨hentity, hrest⟩ := entity_append_inj (hclosing _) (hclosing _) (List.cons.inj h).2
  exact ⟨hentity, (List.cons.inj hrest).2⟩

theorem namePrefix_append_inj (hr : ∀ c ∈ r.head?, isEscaped c = false)
    (hr' : ∀ c ∈ r'.head?, isEscaped c = false)
    (h : namePrefix identity ++ r = namePrefix other ++ r') :
    (identity.tracked = other.tracked ∧ identity.cacheNamespace = other.cacheNamespace ∧
      identity.keyType = other.keyType ∧ identity.id = other.id) ∧ r = r' := by
  cases ht : identity.tracked with
  | false =>
    cases ht' : other.tracked with
    | false =>
      simp only [namePrefix, ht, ht', Bool.false_eq_true, if_false] at h
      obtain ⟨hentity, hrest⟩ := entity_append_inj hr hr' h
      exact ⟨⟨rfl, hentity⟩, hrest⟩
    | true =>
      have hhead := head_namePrefix_of_untracked (r := r) ht
      rw [h, head_namePrefix_of_tracked ht'] at hhead
      exact absurd rfl hhead
  | true =>
    cases ht' : other.tracked with
    | false =>
      have hhead := head_namePrefix_of_untracked (r := r') ht'
      rw [← h, head_namePrefix_of_tracked ht] at hhead
      exact absurd rfl hhead
    | true =>
      simp only [namePrefix, ht, ht', if_true] at h
      obtain ⟨hentity, hrest⟩ := hashTagged_append_inj h
      exact ⟨⟨rfl, hentity⟩, hrest⟩

/-- A logical name is read back as its identity, with the text that follows its use case. -/
theorem logicalName_inj (h : logicalName identity = logicalName other) : identity = other := by
  obtain ⟨⟨ht, hn, hk, hi⟩, hrest⟩ := namePrefix_append_inj (head_query _ _) (head_query _ _) h
  obtain ⟨hargs, huse⟩ := query_append_inj hrest
  have huseCase := escape_inj huse
  cases identity
  cases other
  simp_all

theorem watermarkName_inj {n n' k k' i i' : Text} (h : watermarkName n k i = watermarkName n' k' i') :
    n = n' ∧ k = k' ∧ i = i' :=
  (hashTagged_append_inj h).1

/-- The frame suffix has a colon that no watermark name has behind its hash tag. -/
theorem logicalName_frameSuffix_ne_watermarkName (n k i : Text) :
    logicalName identity ++ frameSuffix ≠ watermarkName n k i := by
  intro h
  simp only [logicalName, List.append_assoc, List.cons_append] at h
  cases ht : identity.tracked with
  | false =>
    apply head_namePrefix_of_untracked ht
    rw [h]
    rfl
  | true =>
    simp only [namePrefix, ht, if_true, watermarkName] at h
    have hrest := (hashTagged_append_inj h).2
    have hcolon : ':' ∈ frameSuffix := by decide +kernel
    have hnone : ':' ∉ watermarkSuffix := by decide +kernel
    apply hnone
    rw [← hrest]
    simp [hcolon]

theorem opening_notMem_query : '{' ∉ query args := by
  have hescape : ∀ t : Text, '{' ∉ escape t := by
    intro t h
    exact absurd (isEscaped_of_mem_escape h) (by decide)
  cases args with
  | nil => simp [query]
  | cons arg args => simp [query, escapedArg, hescape]

theorem opening_notMem_logicalName (h : identity.tracked = false) :
    '{' ∉ logicalName identity := by
  intro hmem
  simp only [logicalName, namePrefix, h, Bool.false_eq_true, if_false, List.mem_append,
    List.mem_cons] at hmem
  rcases hmem with hmem | hmem | hmem | hmem
  · exact brace_notMem_entity (Or.inl rfl) hmem
  · exact opening_notMem_query _ hmem
  · exact absurd hmem (by decide)
  · exact absurd (isEscaped_of_mem_escape hmem) (by decide)

theorem hashTag_of_braced {β : Type} [DecidableEq β] {opening closing : β} {tag rest : List β}
    (hne : tag ≠ []) (hclosing : closing ∉ tag) :
    hashTag opening closing (opening :: (tag ++ closing :: rest)) = some tag := by
  have htake : (tag ++ closing :: rest).takeWhile (fun x => !decide (x = closing)) = tag := by
    rw [List.takeWhile_append_of_pos]
    · simp
    · intro x hx
      have : x ≠ closing := fun heq => hclosing (heq ▸ hx)
      simpa using this
  simp [hashTag, htake, hne]

theorem entity_ne_nil (n k i : Text) : entity n k i ≠ [] := by simp [entity]

end Names

/-! ### Names are ASCII -/

section Ascii

def IsAscii (t : Text) : Prop := ∀ c ∈ t, c.toNat < 128

theorem toNat_lt_of_isEscaped (h : isEscaped c = true) : c.toNat < 128 := by
  simp only [isEscaped, decide_eq_true_eq] at h
  rcases h with rfl | ⟨hlt, hun⟩
  · decide
  · have hlow := isUnreserved_lt hun
    rwa [toNat_byte hlt] at hlow

theorem IsAscii.append {a b : Text} (ha : IsAscii a) (hb : IsAscii b) : IsAscii (a ++ b) := by
  intro c hc
  rcases List.mem_append.mp hc with h | h
  · exact ha c h
  · exact hb c h

theorem IsAscii.cons (hc : c.toNat < 128) (ht : IsAscii t) : IsAscii (c :: t) := by
  intro d hd
  rcases List.mem_cons.mp hd with rfl | h
  · exact hc
  · exact ht d h

theorem isAscii_escape (t : Text) : IsAscii (escape t) :=
  fun _ hc => toNat_lt_of_isEscaped (isEscaped_of_mem_escape hc)

theorem isAscii_entity (n k i : Text) : IsAscii (entity n k i) :=
  (isAscii_escape n).append (IsAscii.cons (by decide) ((isAscii_escape k).append
    (IsAscii.cons (by decide) (isAscii_escape i))))

theorem isAscii_hashTagged (h : IsAscii t) : IsAscii (hashTagged t) :=
  IsAscii.cons (by decide) (h.append (IsAscii.cons (by decide) (by intro c hc; cases hc)))

theorem isAscii_escapedArg (arg : Text × Text) : IsAscii (escapedArg arg) :=
  (isAscii_escape arg.1).append (IsAscii.cons (by decide) (isAscii_escape arg.2))

theorem isAscii_query : IsAscii (query args) := by
  cases args with
  | nil =>
    intro c hc
    cases hc
  | cons arg args =>
    apply IsAscii.cons (by decide)
    apply (isAscii_escapedArg arg).append
    intro c hc
    obtain ⟨further, -, hmem⟩ := List.mem_flatMap.mp hc
    exact IsAscii.cons (by decide) (isAscii_escapedArg further) c hmem

theorem isAscii_logicalName (identity : Identity Text) : IsAscii (logicalName identity) := by
  have hstart : IsAscii (namePrefix identity) := by
    unfold namePrefix
    split
    · exact isAscii_hashTagged (isAscii_entity _ _ _)
    · exact isAscii_entity _ _ _
  exact hstart.append ((isAscii_query _).append (IsAscii.cons (by decide) (isAscii_escape _)))

theorem isAscii_of_all (h : t.all (fun c => decide (c.toNat < 128)) = true) : IsAscii t := by
  intro c hc
  exact of_decide_eq_true (List.all_eq_true.mp h c hc)

theorem isAscii_frameSuffix : IsAscii frameSuffix := isAscii_of_all (by decide +kernel)

theorem isAscii_watermarkName (n k i : Text) : IsAscii (watermarkName n k i) := by
  have hsuffix : IsAscii watermarkSuffix := isAscii_of_all (by decide +kernel)
  exact (isAscii_hashTagged (isAscii_entity n k i)).append hsuffix

end Ascii

end DialCache.PortableKeys
