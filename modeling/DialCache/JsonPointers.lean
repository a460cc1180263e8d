import DialCache.LogClamps
import DialCache.JsonTrees

/-!
# Logged JSON pointers

A difference between two JSON values is logged under an RFC 6901 pointer, clamped like any
other log text. No port builds the whole pointer when it is long: TypeScript and Python cut
member names, Rust stops at the cap, Go copies a bounded number of bytes. What they leave out
lies behind the part that the clamp keeps.
-/

namespace DialCache.JsonPointers

open UnicodeText CacheKeys Utf8Replacement Utf8Prefixes PortableKeys LogClamps JsonTrees
open LogClamps.TypeScript (clampUtf8)

def pathMaxBytes : ℕ := 512

/-! ### The pointer

Strings are lists over an alphabet `β` that has a unit for every ASCII character. -/

section Pointer

variable {β : Type} [DecidableEq β] (unit : Char → β)

def replaceAll (old : β) (new s : List β) : List β := s.flatMap fun x => if x = old then new else [x]

/-- `~` becomes `~0`, then `/` becomes `~1`. -/
def escapePointerToken (name : List β) : List β :=
  replaceAll (unit '/') [unit '~', unit '1'] (replaceAll (unit '~') [unit '~', unit '0'] name)

def indexText (n : ℕ) : List β := (Nat.toDigits 10 n).map unit

/-- The text of a token; an index is read as its decimal. -/
def tokenText : Token (List β) → List β
  | .index n => indexText unit n
  | .name s => s

def escapedToken : Token (List β) → List β
  | .index n => indexText unit n
  | .name s => escapePointerToken unit s

def fullPointer (tokens : List (Token (List β))) : List β :=
  tokens.flatMap fun token => unit '/' :: escapedToken unit token

theorem fullPointer_cons (token : Token (List β)) (tokens : List (Token (List β))) :
    fullPointer unit (token :: tokens) =
      (unit '/' :: escapedToken unit token) ++ fullPointer unit tokens := by
  simp [fullPointer]

/-- The escaped form of one unit. -/
def escapeUnit (x : β) : List β :=
  replaceAll (unit '/') [unit '~', unit '1'] (if x = unit '~' then [unit '~', unit '0'] else [x])

theorem escapePointerToken_eq (name : List β) :
    escapePointerToken unit name = name.flatMap (escapeUnit unit) := by
  rw [escapePointerToken, replaceAll, replaceAll, List.flatMap_assoc]
  rfl

theorem escapePointerToken_append (front back : List β) :
    escapePointerToken unit (front ++ back) =
      escapePointerToken unit front ++ escapePointerToken unit back := by
  simp only [escapePointerToken_eq, List.flatMap_append]

theorem length_escapeUnit_pos (x : β) : 0 < (escapeUnit unit x).length := by
  rw [escapeUnit, replaceAll, List.length_pos_iff, ne_eq, List.flatMap_eq_nil_iff]
  intro h
  split at h
  · have hfirst := h (unit '~') List.mem_cons_self
    split at hfirst <;> cases hfirst
  · have hfirst := h x List.mem_cons_self
    split at hfirst <;> cases hfirst

theorem length_le_escapePointerToken (name : List β) :
    name.length ≤ (escapePointerToken unit name).length := by
  rw [escapePointerToken_eq]
  induction name with
  | nil => exact Nat.zero_le _
  | cons x name ih =>
    have hpos := length_escapeUnit_pos unit x
    rw [List.flatMap_cons, List.length_append, List.length_cons]
    omega

end Pointer

/-! ### What a pointer determines -/

/-- Different ASCII characters have different units. -/
def Separates {β : Type} (unit : Char → β) : Prop :=
  ∀ c d : Char, c.toNat < 128 → d.toNat < 128 → unit c = unit d → c = d

section Separates

variable {β : Type} [DecidableEq β] {unit : Char → β}

omit [DecidableEq β] in
theorem Separates.ne (h : Separates unit) {c d : Char} (hc : c.toNat < 128) (hd : d.toNat < 128)
    (hne : c ≠ d) : unit c ≠ unit d := fun heq => hne (h c d hc hd heq)

theorem Separates.escapeUnit_eq (h : Separates unit) (x : β) : escapeUnit unit x =
    if x = unit '~' then [unit '~', unit '0'] else if x = unit '/' then [unit '~', unit '1'] else [x] := by
  have htilde : unit '~' ≠ unit '/' := h.ne (by decide) (by decide) (by decide)
  have hzero : unit '0' ≠ unit '/' := h.ne (by decide) (by decide) (by decide)
  rw [escapeUnit]
  split
  · simp only [replaceAll, List.flatMap_cons, List.flatMap_nil, List.append_nil, if_neg htilde,
      if_neg hzero]
    rfl
  · rw [replaceAll, List.flatMap_singleton]

/-- The escaped forms of different units do not begin alike. -/
theorem Separates.escapeUnit_append_inj (h : Separates unit) {x y : β} {s t : List β}
    (heq : escapeUnit unit x ++ s = escapeUnit unit y ++ t) : x = y ∧ s = t := by
  have hdigit : unit '0' ≠ unit '1' := h.ne (by decide) (by decide) (by decide)
  rw [h.escapeUnit_eq, h.escapeUnit_eq] at heq
  by_cases hx : x = unit '~' <;> by_cases hy : y = unit '~'
  · rw [if_pos hx, if_pos hy] at heq
    exact ⟨hx.trans hy.symm, List.append_cancel_left heq⟩
  · rw [if_pos hx, if_neg hy] at heq
    split at heq
    · exact absurd (List.cons.inj (List.cons.inj heq).2).1 hdigit
    · exact absurd (List.cons.inj heq).1.symm hy
  · rw [if_neg hx, if_pos hy] at heq
    split at heq
    · exact absurd (List.cons.inj (List.cons.inj heq).2).1.symm hdigit
    · exact absurd (List.cons.inj heq).1 hx
  · rw [if_neg hx, if_neg hy] at heq
    by_cases hx' : x = unit '/' <;> by_cases hy' : y = unit '/'
    · rw [if_pos hx', if_pos hy'] at heq
      exact ⟨hx'.trans hy'.symm, List.append_cancel_left heq⟩
    · rw [if_pos hx', if_neg hy'] at heq
      exact absurd (List.cons.inj heq).1.symm hy
    · rw [if_neg hx', if_pos hy'] at heq
      exact absurd (List.cons.inj heq).1 hx
    · rw [if_neg hx', if_neg hy'] at heq
      exact List.cons.inj heq

theorem Separates.slash_notMem_escape (h : Separates unit) (s : List β) :
    unit '/' ∉ escapePointerToken unit s := by
  have htilde : unit '/' ≠ unit '~' := h.ne (by decide) (by decide) (by decide)
  have hzero : unit '/' ≠ unit '0' := h.ne (by decide) (by decide) (by decide)
  have hone : unit '/' ≠ unit '1' := h.ne (by decide) (by decide) (by decide)
  rw [escapePointerToken_eq, List.mem_flatMap]
  intro hmem
  obtain ⟨x, -, hx⟩ := hmem
  rw [h.escapeUnit_eq] at hx
  split at hx
  · simp [htilde, hzero] at hx
  split at hx
  · simp [htilde, hone] at hx
  · rename_i hslash
    exact hslash (List.mem_singleton.mp hx).symm

theorem Separates.escape_injective (h : Separates unit) {s t : List β}
    (heq : escapePointerToken unit s = escapePointerToken unit t) : s = t := by
  induction s generalizing t with
  | nil =>
    have hlength := length_le_escapePointerToken unit t
    rw [← heq] at hlength
    exact (List.length_eq_zero_iff.mp (Nat.le_zero.mp hlength)).symm
  | cons x s ih =>
    cases t with
    | nil =>
      have hlength := length_le_escapePointerToken unit (x :: s)
      rw [heq] at hlength
      exact absurd hlength (Nat.not_succ_le_zero _)
    | cons y t =>
      rw [escapePointerToken_eq, escapePointerToken_eq, List.flatMap_cons, List.flatMap_cons,
        ← escapePointerToken_eq, ← escapePointerToken_eq] at heq
      obtain ⟨rfl, hrest⟩ := h.escapeUnit_append_inj heq
      rw [ih hrest]

theorem isDigit_of_mem_toDigits {n : ℕ} {c : Char} (h : c ∈ Nat.toDigits 10 n) : c.isDigit = true :=
  Nat.isDigit_of_mem_toDigits (by decide) (by decide) h

theorem toNat_lt_of_isDigit {c : Char} (h : c.isDigit = true) : c.toNat < 128 := by
  simp only [Char.isDigit, Bool.and_eq_true, decide_eq_true_eq, ge_iff_le] at h
  have hnine := UInt32.le_iff_toNat_le.mp h.2
  have hcode : '9'.val.toNat = 57 := rfl
  change c.val.toNat < 128
  omega

/-- An index needs no escape. -/
theorem Separates.escaped_eq (h : Separates unit) (token : Token (List β)) :
    escapedToken unit token = escapePointerToken unit (tokenText unit token) := by
  cases token with
  | name s => rfl
  | index n =>
    have hplain : ∀ c ∈ Nat.toDigits 10 n, escapeUnit unit (unit c) = [unit c] := by
      intro c hc
      have hdigit := isDigit_of_mem_toDigits hc
      have hascii := toNat_lt_of_isDigit hdigit
      have hother : ∀ d : Char, d.toNat < 128 → d.isDigit = false → unit c ≠ unit d := by
        intro d hd hnot heq
        rw [h c d hascii hd heq, hnot] at hdigit
        cases hdigit
      rw [h.escapeUnit_eq, if_neg (hother '~' (by decide) (by decide)),
        if_neg (hother '/' (by decide) (by decide))]
    rw [escapedToken, tokenText, escapePointerToken_eq, indexText, List.flatMap_map,
      List.flatMap_congr hplain, ← List.map_eq_flatMap]

/-- A pointer determines the texts of its tokens. -/
theorem Separates.texts_of_fullPointer (h : Separates unit) {tokens tokens' : List (Token (List β))}
    (heq : fullPointer unit tokens = fullPointer unit tokens') :
    tokens.map (tokenText unit) = tokens'.map (tokenText unit) := by
  induction tokens generalizing tokens' with
  | nil =>
    cases tokens' with
    | nil => rfl
    | cons token' tokens' =>
      rw [fullPointer_cons] at heq
      cases heq
  | cons token tokens ih =>
    cases tokens' with
    | nil =>
      rw [fullPointer_cons] at heq
      cases heq
    | cons token' tokens' =>
      rw [fullPointer_cons, fullPointer_cons] at heq
      have hmarked : ∀ token : Token (List β), ∀ x ∈ escapedToken unit token,
          decide (x ≠ unit '/') = true := by
        intro token x hx
        rw [h.escaped_eq] at hx
        apply decide_eq_true
        rintro rfl
        exact h.slash_notMem_escape _ hx
      have hhead : ∀ tokens : List (Token (List β)), ∀ x ∈ (fullPointer unit tokens).head?,
          decide (x ≠ unit '/') = false := by
        intro tokens x hx
        cases tokens with
        | nil => cases hx
        | cons token tokens =>
          rw [fullPointer_cons, List.cons_append, List.head?_cons] at hx
          obtain rfl := Option.some.inj hx
          exact decide_eq_false (not_not_intro rfl)
      obtain ⟨hescaped, hrest⟩ := append_inj_of_marked (hmarked token) (hmarked token')
        (hhead tokens) (hhead tokens') (List.cons.inj heq).2
      rw [h.escaped_eq, h.escaped_eq] at hescaped
      rw [List.map_cons, List.map_cons, h.escape_injective hescaped, ih hrest]

end Separates

/-! ### Pointers of written text -/

variable (tokens : List (Token Text))

def textPointer : Text := fullPointer id tokens

theorem separates_id : Separates id := fun _ _ _ _ h => h

theorem escapeUnit_text (c : Char) : escapeUnit id c =
    if c = '~' then ['~', '0'] else if c = '/' then ['~', '1'] else [c] :=
  separates_id.escapeUnit_eq c

/-- A way to write scalars in which an ASCII character is one unit and its unit stands for
nothing else. -/
structure Writes {β : Type} (unit : Char → β) (write : Char → List β) : Prop where
  ascii : ∀ c, c.toNat < 128 → write c = [unit c]
  unit_mem : ∀ c d, c.toNat < 128 → (unit c ∈ write d ↔ c = d)

section Written

variable {β : Type} {unit : Char → β} {write : Char → List β}

theorem Writes.separates (h : Writes unit write) : Separates unit := by
  intro c d hc hd hunit
  apply (h.unit_mem c d hc).mp
  rw [h.ascii d hd, hunit]
  exact List.mem_singleton_self _

theorem Writes.indexText (h : Writes unit write) (n : ℕ) :
    indexText unit n = (JsonPointers.indexText id n).flatMap write := by
  have hdigits : ∀ c ∈ JsonPointers.indexText id n, write c = [unit c] := by
    intro c hc
    rw [JsonPointers.indexText, List.map_id] at hc
    exact h.ascii c (toNat_lt_of_isDigit (isDigit_of_mem_toDigits hc))
  rw [List.flatMap_congr hdigits, JsonPointers.indexText, JsonPointers.indexText, List.map_id,
    ← List.map_eq_flatMap]

variable [DecidableEq β]

theorem Writes.escapeUnits (h : Writes unit write) (c : Char) :
    (write c).flatMap (escapeUnit unit) = (escapeUnit id c).flatMap write := by
  rw [escapeUnit_text]
  by_cases htilde : c = '~'
  · rw [if_pos htilde, htilde, h.ascii '~' (by decide), List.flatMap_singleton,
      h.separates.escapeUnit_eq, if_pos rfl, List.flatMap_cons, List.flatMap_singleton,
      h.ascii '~' (by decide), h.ascii '0' (by decide)]
    rfl
  rw [if_neg htilde]
  by_cases hslash : c = '/'
  · have hne : unit '/' ≠ unit '~' := h.separates.ne (by decide) (by decide) (by decide)
    rw [if_pos hslash, hslash, h.ascii '/' (by decide), List.flatMap_singleton,
      h.separates.escapeUnit_eq, if_neg hne, if_pos rfl, List.flatMap_cons, List.flatMap_singleton,
      h.ascii '~' (by decide), h.ascii '1' (by decide)]
    rfl
  · have hplain : ∀ x ∈ write c, escapeUnit unit x = [x] := by
      intro x hx
      have hnotTilde : x ≠ unit '~' := by
        rintro rfl
        exact htilde ((h.unit_mem '~' c (by decide)).mp hx).symm
      have hnotSlash : x ≠ unit '/' := by
        rintro rfl
        exact hslash ((h.unit_mem '/' c (by decide)).mp hx).symm
      rw [h.separates.escapeUnit_eq, if_neg hnotTilde, if_neg hnotSlash]
    rw [if_neg hslash, List.flatMap_singleton, List.flatMap_congr hplain]
    exact List.flatMap_singleton' _

theorem Writes.escape (h : Writes unit write) (s : Text) :
    escapePointerToken unit (s.flatMap write) = (escapePointerToken id s).flatMap write := by
  rw [escapePointerToken_eq, escapePointerToken_eq, List.flatMap_assoc, List.flatMap_assoc]
  apply List.flatMap_congr
  intro c _
  exact h.escapeUnits c

/-- The pointer of written names is the written pointer. -/
theorem Writes.pointer (h : Writes unit write) (tokens : List (Token Text)) :
    fullPointer unit (tokens.map (Token.map (·.flatMap write))) = (textPointer tokens).flatMap write := by
  induction tokens with
  | nil => rfl
  | cons token tokens ih =>
    have hescaped : escapedToken unit (token.map (·.flatMap write)) = (escapedToken id token).flatMap write := by
      cases token with
      | index n => exact h.indexText n
      | name s => exact h.escape s
    rw [List.map_cons, fullPointer_cons, textPointer, fullPointer_cons, List.flatMap_append,
      List.flatMap_cons, id, h.ascii '/' (by decide), hescaped, ih]
    rfl

end Written

/-! ### Clamps of strings that begin alike -/

theorem length_unitsOf_le (c : Char) : (unitsOf c).length ≤ (String.utf8EncodeChar c).length := by
  have hpos := length_utf8EncodeChar_pos c
  rw [unitsOf]
  split
  · exact hpos
  · rename_i hlarge
    have hv : ¬ c.val.toNat < 0x10000 := hlarge
    unfold String.utf8EncodeChar
    dsimp only
    rw [if_neg (by omega), if_neg (by omega), if_neg (by omega)]
    exact (by decide : 2 ≤ 4)

theorem length_units_le (cs : List Char) : (units cs).length ≤ byteLength cs := by
  induction cs with
  | nil => exact Nat.le_refl 0
  | cons c cs ih =>
    have hc := length_unitsOf_le c
    rw [units] at ih
    rw [byteLength_cons, units, List.flatMap_cons, List.length_append]
    omega

/-- Strings that begin alike decode alike up to the last code unit of what they share. -/
theorem exists_shared_scalars (shared : JsString) (rest : JsString) :
    ∃ p, p <+: scalars shared ∧ p <+: scalars (shared ++ rest) ∧
      shared.length ≤ (units p).length + 1 := by
  induction shared using scalars.induct with
  | case1 => exact ⟨[], List.nil_prefix, List.nil_prefix, Nat.zero_le _⟩
  | case2 u => exact ⟨[], List.nil_prefix, List.nil_prefix, Nat.le_refl _⟩
  | case3 u v vs h ih =>
    obtain ⟨p, hp, hp', hlength⟩ := ih
    rw [Bool.and_eq_true] at h
    apply Exists.intro (pairScalar u v :: p)
    have hfirst : (isHighSurrogate u && isLowSurrogate v) = true := by rw [h.1, h.2]; rfl
    rw [List.cons_append, List.cons_append, scalars, scalars, if_pos hfirst, if_pos hfirst,
      List.prefix_cons_inj, List.prefix_cons_inj]
    refine ⟨hp, hp', ?_⟩
    rw [units, List.flatMap_cons, List.length_append, TypeScript.length_unitsOf_pairScalar h.1 h.2]
    rw [units] at hlength
    simp only [List.length_cons]
    omega
  | case4 u v vs h ih =>
    obtain ⟨p, hp, hp', hlength⟩ := ih
    apply Exists.intro (loneScalar u :: p)
    rw [List.cons_append] at hp'
    rw [List.cons_append, List.cons_append, scalars, scalars, if_neg h, if_neg h,
      List.prefix_cons_inj, List.prefix_cons_inj]
    refine ⟨hp, hp', ?_⟩
    rw [units, List.flatMap_cons, List.length_append, TypeScript.length_unitsOf_loneScalar]
    rw [units] at hlength
    simp only [List.length_cons] at hlength ⊢
    omega

theorem fitting_of_isPrefix {limit : ℕ} {p cs : List Char} (hp : p <+: cs)
    (h : limit < byteLength p) : fitting limit cs = fitting limit p := by
  obtain ⟨rest, rfl⟩ := hp
  exact fitting_append h rest

/-- More than a cap of shared code units decides the clamp. -/
theorem shared_units {shared : JsString} (h : pathMaxBytes < shared.length) (rest : JsString) :
    pathMaxBytes < byteLength (scalars (shared ++ rest)) ∧
      fitting (pathMaxBytes - 14) (scalars (shared ++ rest)) =
        fitting (pathMaxBytes - 14) (scalars shared) := by
  obtain ⟨p, hp, hp', hlength⟩ := exists_shared_scalars shared rest
  have hbytes := length_units_le p
  have hcut : pathMaxBytes - 14 < byteLength p := by
    rw [pathMaxBytes] at h ⊢
    omega
  constructor
  · have hall := length_units_le (scalars (shared ++ rest))
    rw [TypeScript.length_units_scalars, List.length_append] at hall
    omega
  · rw [fitting_of_isPrefix hp hcut, fitting_of_isPrefix hp' hcut]

theorem shared_scalars {p cs : List Char} (hp : p <+: cs) (h : pathMaxBytes < byteLength p) :
    clamped pathMaxBytes cs = clamped pathMaxBytes p := by
  have hcut : pathMaxBytes - 14 < byteLength p := Nat.lt_of_le_of_lt (Nat.sub_le _ _) h
  have hlong : pathMaxBytes < byteLength cs := Nat.lt_of_lt_of_le h (byteLength_le_of_isPrefix hp)
  rw [clamped_of_lt h, clamped_of_lt hlong, fitting_of_isPrefix hp hcut]

/-! ### TypeScript -/

namespace TypeScript

def unit (c : Char) : UInt16 := UInt16.ofNat c.toNat

theorem writes : Writes unit unitsOf where
  ascii := by
    intro c hc
    rw [unitsOf, if_pos (by omega)]
    rfl
  unit_mem := fun _ _ hc => KeyPorts.mem_unitsOf_iff hc

/-- What the walk appends for a token. -/
def keptPiece : Token JsString → JsString
  | .index n => unit '/' :: indexText unit n
  | .name s => unit '/' :: escapePointerToken unit (s.take pathMaxBytes)

def growPointer (path : JsString) : List (Token JsString) → JsString
  | [] => path
  | token :: tokens =>
    if pathMaxBytes < path.length then path else growPointer (path ++ keptPiece token) tokens

def keptPointer (tokens : List (Token JsString)) : JsString := growPointer [] tokens

theorem keptPiece_spec (token : Token JsString) :
    keptPiece token = unit '/' :: escapedToken unit token ∨
      (keptPiece token <+: unit '/' :: escapedToken unit token ∧ pathMaxBytes < (keptPiece token).length) := by
  cases token with
  | index n => exact Or.inl rfl
  | name s =>
    rcases Nat.lt_or_ge pathMaxBytes s.length with hlong | hshort
    · right
      constructor
      · rw [keptPiece, escapedToken, List.prefix_cons_inj]
        conv_rhs => rw [← List.take_append_drop pathMaxBytes s]
        rw [escapePointerToken_append]
        exact List.prefix_append _ _
      · have hlength := length_le_escapePointerToken unit (s.take pathMaxBytes)
        rw [List.length_take, Nat.min_eq_left (Nat.le_of_lt hlong)] at hlength
        rw [keptPiece, List.length_cons]
        omega
    · left
      rw [keptPiece, escapedToken, List.take_of_length_le hshort]

theorem growPointer_of_long {path : JsString} (h : pathMaxBytes < path.length)
    (tokens : List (Token JsString)) : growPointer path tokens = path := by
  cases tokens with
  | nil => rfl
  | cons token tokens => exact if_pos h

/-- A shortened pointer begins the whole one and is longer than the cap. -/
theorem growPointer_spec (path : JsString) (tokens : List (Token JsString)) :
    growPointer path tokens = path ++ fullPointer unit tokens ∨
      (growPointer path tokens <+: path ++ fullPointer unit tokens ∧
        pathMaxBytes < (growPointer path tokens).length) := by
  induction tokens generalizing path with
  | nil => exact Or.inl (List.append_nil path).symm
  | cons token tokens ih =>
    by_cases hlong : pathMaxBytes < path.length
    · rw [growPointer_of_long hlong]
      exact Or.inr ⟨List.prefix_append _ _, hlong⟩
    · rw [growPointer, if_neg hlong, fullPointer_cons]
      rcases keptPiece_spec token with hwhole | ⟨hstart, hcut⟩
      · rw [hwhole, ← List.append_assoc]
        exact ih _
      · right
        have hlong' : pathMaxBytes < (path ++ keptPiece token).length := by
          rw [List.length_append]
          omega
        rw [growPointer_of_long hlong']
        refine ⟨?_, hlong'⟩
        rw [List.prefix_append_right_inj]
        exact hstart.trans (List.prefix_append _ _)

theorem clampUtf8_keptPointer (tokens : List (Token JsString)) :
    clampUtf8 (keptPointer tokens) pathMaxBytes =
      clampUtf8 (fullPointer unit tokens) pathMaxBytes := by
  rw [keptPointer]
  rcases growPointer_spec [] tokens with hwhole | ⟨hstart, hlong⟩
  · rw [hwhole, List.nil_append]
  · obtain ⟨rest, hrest⟩ := hstart
    rw [List.nil_append] at hrest
    have hkept := shared_units hlong []
    have hfull := shared_units hlong rest
    rw [List.append_nil] at hkept
    rw [hrest] at hfull
    rw [LogClamps.TypeScript.clampUtf8_eq (by decide), LogClamps.TypeScript.clampUtf8_eq (by decide),
      if_neg (Nat.not_le.mpr hkept.1), if_neg (Nat.not_le.mpr hfull.1), hfull.2]

end TypeScript

/-! ### Rust -/

namespace Rust

/-- The characters of a name, until the pointer is longer than the cap. -/
def pushName (pointer : Text) : Text → Text
  | [] => pointer
  | c :: cs =>
    if pathMaxBytes < byteLength pointer then pointer
    else pushName (pointer ++ (if c = '~' then ['~', '0'] else if c = '/' then ['~', '1'] else [c])) cs

def pushToken (pointer : Text) : Token Text → Text
  | .index n => (pointer ++ ['/']) ++ indexText id n
  | .name s => pushName (pointer ++ ['/']) s

def pushTokens (path : Text) : List (Token Text) → Text
  | [] => path
  | token :: tokens =>
    if pathMaxBytes < byteLength path then path else pushTokens (pushToken path token) tokens

def pointer : Text := pushTokens [] tokens

theorem pushName_of_long {path : Text} (h : pathMaxBytes < byteLength path) (s : Text) :
    pushName path s = path := by
  cases s with
  | nil => rfl
  | cons c s => exact if_pos h

theorem pushName_spec (path s : Text) : pushName path s = path ++ escapePointerToken id s ∨
    (pushName path s <+: path ++ escapePointerToken id s ∧
      pathMaxBytes < byteLength (pushName path s)) := by
  induction s generalizing path with
  | nil => exact Or.inl (List.append_nil path).symm
  | cons c s ih =>
    by_cases hlong : pathMaxBytes < byteLength path
    · rw [pushName_of_long hlong]
      exact Or.inr ⟨List.prefix_append _ _, hlong⟩
    · have hnext := ih (path ++ escapeUnit id c)
      rw [escapePointerToken_eq, List.append_assoc, ← List.flatMap_cons] at hnext
      rw [pushName, if_neg hlong, ← escapeUnit_text, escapePointerToken_eq]
      exact hnext

theorem pushToken_spec (path : Text) (token : Token Text) :
    pushToken path token = path ++ '/' :: escapedToken id token ∨
      (pushToken path token <+: path ++ '/' :: escapedToken id token ∧
        pathMaxBytes < byteLength (pushToken path token)) := by
  cases token with
  | index n => exact Or.inl (List.append_assoc path ['/'] _)
  | name s =>
    have hname := pushName_spec (path ++ ['/']) s
    rw [List.append_assoc, List.singleton_append] at hname
    exact hname

theorem pushTokens_of_long {path : Text} (h : pathMaxBytes < byteLength path)
    (tokens : List (Token Text)) : pushTokens path tokens = path := by
  cases tokens with
  | nil => rfl
  | cons token tokens => exact if_pos h

theorem pushTokens_spec (path : Text) (tokens : List (Token Text)) :
    pushTokens path tokens = path ++ textPointer tokens ∨
      (pushTokens path tokens <+: path ++ textPointer tokens ∧
        pathMaxBytes < byteLength (pushTokens path tokens)) := by
  induction tokens generalizing path with
  | nil => exact Or.inl (List.append_nil path).symm
  | cons token tokens ih =>
    by_cases hlong : pathMaxBytes < byteLength path
    · rw [pushTokens_of_long hlong]
      exact Or.inr ⟨List.prefix_append _ _, hlong⟩
    · rw [pushTokens, if_neg hlong, textPointer, fullPointer_cons]
      rcases pushToken_spec path token with hwhole | ⟨hstart, hcut⟩
      · rw [hwhole]
        change _ = path ++ ('/' :: escapedToken id token ++ fullPointer id tokens) ∨
          (_ <+: path ++ ('/' :: escapedToken id token ++ fullPointer id tokens) ∧ _)
        rw [← List.append_assoc]
        exact ih _
      · right
        rw [pushTokens_of_long hcut]
        refine ⟨?_, hcut⟩
        rw [← List.append_assoc]
        exact hstart.trans (List.prefix_append _ _)

theorem clampUtf8_pointer : LogClamps.Rust.clampUtf8 (encodeUtf8 (pointer tokens)) pathMaxBytes =
      LogClamps.Rust.clampUtf8 (encodeUtf8 (textPointer tokens)) pathMaxBytes := by
  rw [LogClamps.Rust.clampUtf8_eq (by decide), LogClamps.Rust.clampUtf8_eq (by decide), pointer]
  rcases pushTokens_spec [] tokens with hwhole | ⟨hstart, hlong⟩
  · rw [hwhole, List.nil_append]
  · rw [List.nil_append] at hstart
    rw [shared_scalars hstart hlong]

end Rust

/-! ### Python -/

namespace Python

open KeyAgreement.Python

def unit (c : Char) : ℕ := c.toNat

def writeChar (c : Char) : PyString := [c.toNat]

theorem toNat_injective {c d : Char} (h : c.toNat = d.toNat) : c = d :=
  Char.ext (UInt32.toNat_inj.mp h)

theorem writes : Writes unit writeChar where
  ascii := fun _ _ => rfl
  unit_mem := by
    intro c d _
    rw [writeChar, List.mem_singleton]
    constructor
    · exact toNat_injective
    · rintro rfl
      rfl

theorem codePoints_eq (s : Text) : codePoints s = s.flatMap writeChar := List.map_eq_flatMap

/-- What the walk pushes for the tokens. -/
def escapedTokens (tokens : List (Token PyString)) : List PyString := tokens.map (escapedToken unit)

def joinedPointer (tokens : List PyString) : PyString :=
  tokens.flatMap fun token => unit '/' :: token.take pathMaxBytes

def clampedPointer (tokens : List PyString) : PyString :=
  LogClamps.Python.clampUtf8 (joinedPointer tokens) pathMaxBytes

/-- The joined pointer is the whole one, or both begin alike for longer than the cap. -/
theorem joinedPointer_spec (tokens : List (Token PyString)) :
    joinedPointer (escapedTokens tokens) = fullPointer unit tokens ∨
      ∃ shared, shared <+: joinedPointer (escapedTokens tokens) ∧ shared <+: fullPointer unit tokens ∧
        pathMaxBytes < shared.length := by
  induction tokens with
  | nil => exact Or.inl rfl
  | cons token tokens ih =>
    have hjoined : joinedPointer (escapedTokens (token :: tokens)) =
        unit '/' :: (escapedToken unit token).take pathMaxBytes ++ joinedPointer (escapedTokens tokens) := by
      simp [joinedPointer, escapedTokens]
    rw [hjoined, fullPointer_cons]
    rcases Nat.lt_or_ge pathMaxBytes (escapedToken unit token).length with hlong | hshort
    · right
      refine ⟨unit '/' :: (escapedToken unit token).take pathMaxBytes, List.prefix_append _ _, ?_, ?_⟩
      · rw [List.cons_append, List.prefix_cons_inj]
        exact (List.take_prefix _ _).trans (List.prefix_append _ _)
      · rw [List.length_cons, List.length_take, Nat.min_eq_left (Nat.le_of_lt hlong)]
        exact Nat.lt_succ_self _
    · rw [List.take_of_length_le hshort]
      rcases ih with hwhole | ⟨shared, hleft, hright, hlength⟩
      · left
        rw [hwhole]
      · right
        refine ⟨unit '/' :: escapedToken unit token ++ shared, ?_, ?_, ?_⟩
        · rw [List.prefix_append_right_inj]
          exact hleft
        · rw [List.prefix_append_right_inj]
          exact hright
        · rw [List.length_append]
          omega

theorem length_le_utf16Units (s : PyString) : s.length ≤ (utf16Units s).length := by
  induction s with
  | nil => exact Nat.le_refl 0
  | cons c s ih =>
    rw [utf16Units] at ih
    rw [utf16Units, List.flatMap_cons, List.length_append, List.length_cons]
    split
    · rw [List.length_singleton]
      omega
    · simp only [List.length_cons, List.length_nil]
      omega

theorem clampUtf8_of_shared {shared s : PyString} (hshared : shared <+: s)
    (h : pathMaxBytes < shared.length) : LogClamps.Python.clampUtf8 s pathMaxBytes =
      codePoints (fitting (pathMaxBytes - 14) (scalars (utf16Units shared)) ++ marker) := by
  obtain ⟨rest, rfl⟩ := hshared
  have hunits := Nat.lt_of_lt_of_le h (length_le_utf16Units shared)
  have hcut := shared_units hunits (utf16Units rest)
  rw [LogClamps.Python.clampUtf8_eq (by decide), utf16Units, List.flatMap_append]
  rw [utf16Units, utf16Units] at hcut
  rw [if_neg (Nat.not_le.mpr hcut.1), clamped_of_lt hcut.1, hcut.2]
  rfl

theorem clampedPointer_eq (tokens : List (Token PyString)) :
    clampedPointer (escapedTokens tokens) =
      LogClamps.Python.clampUtf8 (fullPointer unit tokens) pathMaxBytes := by
  rw [clampedPointer]
  rcases joinedPointer_spec tokens with hwhole | ⟨shared, hleft, hright, hlong⟩
  · rw [hwhole]
  · rw [clampUtf8_of_shared hleft hlong, clampUtf8_of_shared hright hlong]

end Python

/-! ### Go -/

namespace Go

def unit (c : Char) : UInt8 := UInt8.ofNat c.toNat

theorem writes : Writes unit String.utf8EncodeChar where
  ascii := fun _ hc => KeyPorts.utf8EncodeChar_ascii hc
  unit_mem := fun _ _ hc => KeyPorts.mem_utf8EncodeChar_iff hc

def pointerCopyBytes : ℕ := pathMaxBytes + 4

/-- The bytes of a kept entry. -/
def keptBytes (tokens : List (Token Bytes)) : Bytes :=
  (fullPointer unit tokens).take (min (fullPointer unit tokens).length pointerCopyBytes)

theorem keptBytes_eq (tokens : List (Token Bytes)) :
    keptBytes tokens = (fullPointer unit tokens).take pointerCopyBytes := by
  rw [keptBytes, Nat.min_comm, List.take_eq_take_min (i := pointerCopyBytes)]

/-- A cut may end inside a character, but not in the bytes that the clamp keeps. -/
theorem clampLogUtf8_take (bytes : Bytes) :
    LogClamps.Go.clampLogUtf8 (bytes.take pointerCopyBytes) pathMaxBytes =
      LogClamps.Go.clampLogUtf8 bytes pathMaxBytes := by
  rcases Nat.lt_or_ge bytes.length pointerCopyBytes with hshort | hlong
  · rw [List.take_of_length_le (Nat.le_of_lt hshort)]
  · have hwritten := length_le_byteLength_feedAll (bytes.take pointerCopyBytes)
    rw [List.length_take, Nat.min_eq_left hlong] at hwritten
    have hfour : pointerCopyBytes = pathMaxBytes + 4 := rfl
    have hcut : pathMaxBytes < byteLength (feedAll none (bytes.take pointerCopyBytes)).1 := by omega
    have hfront := decodeFrom_append none (bytes.take pointerCopyBytes) []
    have hall := decodeFrom_append none (bytes.take pointerCopyBytes) (bytes.drop pointerCopyBytes)
    rw [List.append_nil] at hfront
    rw [List.take_append_drop] at hall
    rw [LogClamps.Go.clampLogUtf8_eq (by decide), LogClamps.Go.clampLogUtf8_eq (by decide), decodeUtf8,
      decodeUtf8, hfront, hall, shared_scalars (List.prefix_append _ _) hcut,
      shared_scalars (List.prefix_append _ _) hcut]

end Go

/-! ### All ports -/

section Ports

open KeyAgreement.Python (PyString codePoints utf16Units)

theorem head_textPointer : (textPointer tokens).head? ≠ some byteOrderMark := by
  cases tokens with
  | nil => exact fun h => nomatch h
  | cons token tokens =>
    rw [textPointer, fullPointer_cons, List.cons_append, List.head?_cons]
    intro h
    exact absurd (Option.some.inj h) (by decide)

theorem codePoints_pointer :
    fullPointer Python.unit (tokens.map (Token.map codePoints)) = codePoints (textPointer tokens) := by
  have hwritten := Python.writes.pointer tokens
  have hwrite : (fun s : Text => s.flatMap Python.writeChar) = codePoints :=
    funext fun s => (Python.codePoints_eq s).symm
  rw [hwrite] at hwritten
  rw [hwritten, Python.codePoints_eq]

/-- A kept pointer is the text itself. -/
theorem textPointer_of_clamped {tokens tokens' : List (Token Text)}
    (hfits : byteLength (textPointer tokens) ≤ pathMaxBytes)
    (hfits' : byteLength (textPointer tokens') ≤ pathMaxBytes)
    (h : clamped pathMaxBytes (textPointer tokens) = clamped pathMaxBytes (textPointer tokens')) :
    tokens.map (tokenText id) = tokens'.map (tokenText id) := by
  rw [clamped_of_le hfits, clamped_of_le hfits'] at h
  exact separates_id.texts_of_fullPointer h

/-- Clamping a shortened pointer is clamping the whole one. For names of scalars the ports log
one text, and a pointer that is logged whole determines the texts of its tokens. -/
theorem shortened_pointers :
    (∀ tokens : List (Token JsString),
      clampUtf8 (TypeScript.keptPointer tokens) pathMaxBytes =
        clampUtf8 (fullPointer TypeScript.unit tokens) pathMaxBytes) ∧
    (∀ tokens : List (Token Text),
      LogClamps.Rust.clampUtf8 (encodeUtf8 (Rust.pointer tokens)) pathMaxBytes =
        LogClamps.Rust.clampUtf8 (encodeUtf8 (textPointer tokens)) pathMaxBytes) ∧
    (∀ tokens : List (Token PyString),
      Python.clampedPointer (Python.escapedTokens tokens) =
        LogClamps.Python.clampUtf8 (fullPointer Python.unit tokens) pathMaxBytes) ∧
    (∀ tokens : List (Token (List UInt8)),
      LogClamps.Go.clampLogUtf8 (Go.keptBytes tokens) pathMaxBytes =
        LogClamps.Go.clampLogUtf8 (fullPointer Go.unit tokens) pathMaxBytes) ∧
    (∀ tokens : List (Token Text),
      clampUtf8 (TypeScript.keptPointer (tokens.map (Token.map units))) pathMaxBytes =
        .ok (units (clamped pathMaxBytes (textPointer tokens))) ∧
      LogClamps.Rust.clampUtf8 (encodeUtf8 (Rust.pointer tokens)) pathMaxBytes =
        encodeUtf8 (clamped pathMaxBytes (textPointer tokens)) ∧
      Python.clampedPointer (Python.escapedTokens (tokens.map (Token.map codePoints))) =
        codePoints (clamped pathMaxBytes (textPointer tokens)) ∧
      LogClamps.Go.clampLogUtf8 (Go.keptBytes (tokens.map (Token.map encodeUtf8))) pathMaxBytes =
        encodeUtf8 (clamped pathMaxBytes (textPointer tokens))) ∧
    (∀ tokens tokens' : List (Token Text), byteLength (textPointer tokens) ≤ pathMaxBytes →
      byteLength (textPointer tokens') ≤ pathMaxBytes →
      clamped pathMaxBytes (textPointer tokens) = clamped pathMaxBytes (textPointer tokens') →
      tokens.map (tokenText id) = tokens'.map (tokenText id)) ∧
    (∀ tokens tokens' : List (Token JsString),
      byteLength (scalars (fullPointer TypeScript.unit tokens)) ≤ pathMaxBytes →
      byteLength (scalars (fullPointer TypeScript.unit tokens')) ≤ pathMaxBytes →
      clampUtf8 (fullPointer TypeScript.unit tokens) pathMaxBytes =
        clampUtf8 (fullPointer TypeScript.unit tokens') pathMaxBytes →
      tokens.map (tokenText TypeScript.unit) = tokens'.map (tokenText TypeScript.unit)) ∧
    (∀ tokens tokens' : List (Token PyString),
      byteLength (scalars (utf16Units (fullPointer Python.unit tokens))) ≤ pathMaxBytes →
      byteLength (scalars (utf16Units (fullPointer Python.unit tokens'))) ≤ pathMaxBytes →
      LogClamps.Python.clampUtf8 (fullPointer Python.unit tokens) pathMaxBytes =
        LogClamps.Python.clampUtf8 (fullPointer Python.unit tokens') pathMaxBytes →
      tokens.map (tokenText Python.unit) = tokens'.map (tokenText Python.unit)) ∧
    (∀ tokens tokens' : List (Token (List UInt8)),
      fullPointer Go.unit tokens = fullPointer Go.unit tokens' →
      tokens.map (tokenText Go.unit) = tokens'.map (tokenText Go.unit)) := by
  have hgo : ∀ tokens : List (Token (List UInt8)),
      LogClamps.Go.clampLogUtf8 (Go.keptBytes tokens) pathMaxBytes =
        LogClamps.Go.clampLogUtf8 (fullPointer Go.unit tokens) pathMaxBytes := by
    intro tokens
    rw [Go.keptBytes_eq, Go.clampLogUtf8_take]
  refine ⟨TypeScript.clampUtf8_keptPointer, Rust.clampUtf8_pointer, Python.clampedPointer_eq, hgo,
    ?_, ?_, ?_, ?_, ?_⟩
  · intro tokens
    refine ⟨?_, ?_, ?_, ?_⟩
    · have hunits : fullPointer TypeScript.unit (tokens.map (Token.map units)) =
          units (textPointer tokens) := TypeScript.writes.pointer tokens
      rw [TypeScript.clampUtf8_keptPointer, hunits, typescript_clamps_iff (by decide)]
      exact fun hmark => head_textPointer tokens hmark.1
    · rw [Rust.clampUtf8_pointer, LogClamps.Rust.clampUtf8_eq (by decide)]
    · rw [Python.clampedPointer_eq, codePoints_pointer, LogClamps.Python.clampUtf8_codePoints (by decide)]
    · have hbytes : fullPointer Go.unit (tokens.map (Token.map encodeUtf8)) =
          encodeUtf8 (textPointer tokens) := Go.writes.pointer tokens
      rw [hgo, hbytes, LogClamps.Go.clampLogUtf8_eq (by decide), decodeUtf8_encodeUtf8]
  · intro tokens tokens'
    exact textPointer_of_clamped
  · intro tokens tokens' hfits hfits' h
    rw [LogClamps.TypeScript.clampUtf8_eq (by decide), LogClamps.TypeScript.clampUtf8_eq (by decide),
      if_pos hfits, if_pos hfits'] at h
    exact TypeScript.writes.separates.texts_of_fullPointer (Except.ok.inj h)
  · intro tokens tokens' hfits hfits' h
    rw [LogClamps.Python.clampUtf8_eq (by decide), LogClamps.Python.clampUtf8_eq (by decide),
      if_pos hfits, if_pos hfits'] at h
    exact Python.writes.separates.texts_of_fullPointer h
  · intro tokens tokens'
    exact Go.writes.separates.texts_of_fullPointer

end Ports

end DialCache.JsonPointers
