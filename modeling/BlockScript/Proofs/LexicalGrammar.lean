import BlockScript.Proofs.LineBreak

/-!
# The lexical grammar

Which characters spell which lexeme, said without a scanner. A lexeme is about its own text and the
text behind it: a text that could go on does go on, and only what comes behind tells a connective
from a name or a slash from a comment.

* `Longest`: a text of a class such that no longer text at its place is in the class.
* `IsNumber`, `IsHexNumber`, `IsWord`, `IsSymbol`: the classes of texts that lexemes have.
* `Body`: the characters between the quotes of a text literal and what they denote.
* `Lexeme.Written`: the text spells the lexeme where it stands.
* `Lexeme.Class`, `Lexeme.Written.longest`: a written lexeme is the longest text of its class.
* `Skipped`: the text is a comment, or a character that starts nothing.
-/

namespace BlockScript

open Character Piece

/-! ### Characters -/

theorem not_isAlphabetic_of_isDigit {c : Char} (h : c.isDigit = true) : isAlphabetic c = false := by
  have hdigits : ∀ n < 58, 48 ≤ n → isAlphabetic (Char.ofNat n) = false := by decide +kernel
  have hval : 48 ≤ c.toNat ∧ c.toNat ≤ 57 := by
    simp only [Char.isDigit, Bool.and_eq_true, decide_eq_true_eq, UInt32.le_iff_toNat_le,
      ge_iff_le] at h
    exact h
  have hc := hdigits c.toNat (by omega) hval.1
  rwa [Char.ofNat_toNat] at hc

/-! ### Where a text of a class ends -/

/-- The text does not start with a character of the class. -/
def Stops (q : Char → Bool) (cs : List Char) : Prop :=
  ∀ c ∈ cs.head?, q c = false

theorem stops_nil (q : Char → Bool) : Stops q [] := by
  simp [Stops]

theorem stops_cons_iff {q : Char → Bool} {c : Char} {cs : List Char} :
    Stops q (c :: cs) ↔ q c = false := by
  simp [Stops]

theorem stops_dropWhile (q : Char → Bool) (cs : List Char) : Stops q (cs.dropWhile q) := by
  intro c hc
  have h := List.head?_dropWhile_not q cs
  rw [Option.mem_def.1 hc] at h
  exact h

section Stops

variable {q : Char → Bool} {t b : List Char}

theorem takeWhile_of_stops (ht : ∀ c ∈ t, q c = true) (hb : Stops q b) :
    (t ++ b).takeWhile q = t := by
  rw [List.takeWhile_append_of_pos ht]
  cases b with
  | nil => simp
  | cons c b => simp [stops_cons_iff.1 hb]

theorem dropWhile_of_stops (ht : ∀ c ∈ t, q c = true) (hb : Stops q b) :
    (t ++ b).dropWhile q = b := by
  rw [List.dropWhile_append_of_pos ht]
  cases b with
  | nil => rfl
  | cons c b => simp [stops_cons_iff.1 hb]

/-- At one place there is one text of characters of the class up to another character. -/
theorem append_inj_of_stops {t' b' : List Char} (ht : ∀ c ∈ t, q c = true)
    (ht' : ∀ c ∈ t', q c = true) (hb : Stops q b) (hb' : Stops q b') (h : t ++ b = t' ++ b') :
    t = t' ∧ b = b' := by
  obtain rfl : t = t' := by
    rw [← takeWhile_of_stops ht hb, h, takeWhile_of_stops ht' hb']
  exact ⟨rfl, List.append_cancel_left h⟩

end Stops

/-- The text belongs to the class, and no longer text at its place does. -/
def Longest (C : List Char → Prop) (text behind : List Char) : Prop :=
  C text ∧ ∀ u, u <+: behind → C (text ++ u) → u = []

section Longest

variable {C : List Char → Prop} {q : Char → Bool} {t b : List Char}

/-- A text is longest if its class would go on with other characters than come behind it. -/
theorem longest_of_stops (ht : C t) (hgoes : ∀ u, C (t ++ u) → ∀ c ∈ u, q c = true)
    (hb : Stops q b) : Longest C t b := by
  refine ⟨ht, fun u hu hC => ?_⟩
  cases u with
  | nil => rfl
  | cons c u =>
    obtain ⟨b', rfl, -⟩ := List.cons_prefix_iff.1 hu
    have hc := hgoes (c :: u) hC c (by simp)
    rw [stops_cons_iff.1 hb] at hc
    cases hc

/-- Behind a longest text comes no character that the class would go on with. -/
theorem Longest.stops (h : Longest C t b) (hgoes : ∀ c, q c = true → C (t ++ [c])) :
    Stops q b := by
  intro c hc
  by_contra hq
  have hprefix : [c] <+: b := by
    cases b with
    | nil => simp at hc
    | cons d b =>
      obtain rfl : d = c := by simpa using hc
      exact ⟨b, rfl⟩
  have := h.2 [c] hprefix (hgoes c (by simpa using hq))
  simp at this

/-- At one place there is at most one longest text of a class. -/
theorem Longest.unique {t' b' : List Char} (h : Longest C t b) (h' : Longest C t' b')
    (heq : t ++ b = t' ++ b') : t = t' := by
  rcases List.append_eq_append_iff.1 heq with ⟨u, rfl, rfl⟩ | ⟨u, rfl, rfl⟩
  · rw [h.2 u (List.prefix_append u b') h'.1, List.append_nil]
  · rw [h'.2 u (List.prefix_append u b) h.1, List.append_nil]

end Longest

/-! ### The classes -/

/-- Digits, then possibly a point and more digits. -/
inductive IsNumber : List Char → Prop
  | whole {ds : List Char} (hne : ds ≠ []) (hds : ∀ c ∈ ds, c.isDigit = true) : IsNumber ds
  | pointed {ds fs : List Char} (hne : ds ≠ []) (hds : ∀ c ∈ ds, c.isDigit = true)
      (hfs : ∀ c ∈ fs, c.isDigit = true) : IsNumber (ds ++ '.' :: fs)

/-- A mark and hexadecimal digits, possibly none. -/
def IsHexNumber (t : List Char) : Prop :=
  ∃ ds, t = '#' :: ds ∧ ∀ c ∈ ds, isHexDigit c = true

/-- A letter and more characters that words consist of. -/
def IsWord (t : List Char) : Prop :=
  ∃ c cs, t = c :: cs ∧ isAlphabetic c = true ∧ ∀ d ∈ cs, inWord d = true

/-- A sign of the language. -/
def IsSymbol (t : List Char) : Prop :=
  ∃ s : Symbol, t = s.spelling.toList

/-- The character may stand in a number. -/
def inNumber (c : Char) : Bool :=
  c.isDigit || c == '.'

theorem IsNumber.inNumber {t : List Char} (h : IsNumber t) : ∀ c ∈ t, inNumber c = true := by
  unfold BlockScript.inNumber
  cases h with
  | whole hne hds =>
    intro c hc
    simp [hds c hc]
  | pointed hne hds hfs =>
    intro c hc
    rcases List.mem_append.1 hc with hc | hc
    · simp [hds c hc]
    · rcases List.mem_cons.1 hc with rfl | hc
      · simp
      · simp [hfs c hc]

theorem IsNumber.exists_eq_cons {t : List Char} (h : IsNumber t) :
    ∃ c cs, t = c :: cs ∧ c.isDigit = true := by
  have hcons : ∀ {ds : List Char}, ds ≠ [] → (∀ c ∈ ds, c.isDigit = true) →
      ∃ c cs, ds = c :: cs ∧ c.isDigit = true := by
    intro ds hne hds
    cases ds with
    | nil => exact absurd rfl hne
    | cons c cs => exact ⟨c, cs, rfl, hds c (by simp)⟩
  cases h with
  | whole hne hds => exact hcons hne hds
  | pointed hne hds hfs =>
    obtain ⟨c, cs, rfl, hc⟩ := hcons hne hds
    exact ⟨c, _, rfl, hc⟩

theorem isWord_append_iff {t u : List Char} (ht : IsWord t) :
    IsWord (t ++ u) ↔ ∀ c ∈ u, inWord c = true := by
  obtain ⟨c, cs, rfl, hc, hcs⟩ := ht
  constructor
  · rintro ⟨d, ds, heq, -, hds⟩
    injection heq with _ heq
    subst heq
    exact fun e he => hds e (List.mem_append_right _ he)
  · intro hu
    refine ⟨c, cs ++ u, rfl, hc, fun d hd => ?_⟩
    rcases List.mem_append.1 hd with hd | hd
    · exact hcs d hd
    · exact hu d hd

theorem IsWord.inWord {t : List Char} (h : IsWord t) : ∀ c ∈ t, inWord c = true := by
  obtain ⟨c, cs, rfl, hc, hcs⟩ := h
  intro d hd
  rcases List.mem_cons.1 hd with rfl | hd
  · simp [Piece.inWord, isAlphanumeric_of_isAlphabetic hc]
  · exact hcs d hd

/-- A word is longest exactly if no character of words comes behind it. -/
theorem longest_isWord_iff {t b : List Char} :
    Longest IsWord t b ↔ IsWord t ∧ Stops Piece.inWord b := by
  constructor
  · intro h
    refine ⟨h.1, h.stops fun c hc => (isWord_append_iff h.1).2 ?_⟩
    simpa using hc
  · rintro ⟨ht, hb⟩
    exact longest_of_stops ht (fun u hu => (isWord_append_iff ht).1 hu) hb

theorem longest_isHexNumber_iff {ds b : List Char} :
    Longest IsHexNumber ('#' :: ds) b ↔ (∀ c ∈ ds, isHexDigit c = true) ∧ Stops isHexDigit b := by
  constructor
  · intro h
    obtain ⟨ds', heq, hds⟩ := h.1
    injection heq with _ heq
    subst heq
    refine ⟨hds, h.stops fun c hc => ⟨ds ++ [c], rfl, fun d hd => ?_⟩⟩
    rcases List.mem_append.1 hd with hd | hd
    · exact hds d hd
    · rw [List.mem_singleton.1 hd]
      exact hc
  · rintro ⟨hds, hb⟩
    refine longest_of_stops ⟨ds, rfl, hds⟩ ?_ hb
    rintro u ⟨ds', heq, hds'⟩ c hc
    injection heq with _ heq
    subst heq
    exact hds' c (List.mem_append_right _ hc)

/-- Behind a longest number comes no digit, and no point either unless it has one already. -/
theorem longest_isNumber_iff {t b : List Char} :
    Longest IsNumber t b ∧ b.head? ≠ some '.' ↔ IsNumber t ∧ Stops inNumber b := by
  constructor
  · rintro ⟨h, hpoint⟩
    refine ⟨h.1, ?_⟩
    have hdigit : Stops Char.isDigit b := by
      refine h.stops fun c hc => ?_
      have hsnoc : ∀ {ds : List Char}, (∀ d ∈ ds, d.isDigit = true) →
          ∀ d ∈ ds ++ [c], d.isDigit = true := by
        intro ds hds d hd
        rcases List.mem_append.1 hd with hd | hd
        · exact hds d hd
        · rw [List.mem_singleton.1 hd]
          exact hc
      cases h.1 with
      | whole hne hds => exact .whole (by simp) (hsnoc hds)
      | pointed hne hds hfs => simpa using IsNumber.pointed hne hds (hsnoc hfs)
    intro c hc
    have hne : c ≠ '.' := by
      rintro rfl
      exact hpoint hc
    simp [inNumber, hdigit c hc, hne]
  · rintro ⟨ht, hb⟩
    have hgoes : ∀ u, IsNumber (t ++ u) → ∀ c ∈ u, inNumber c = true :=
      fun u hu c hc => hu.inNumber c (List.mem_append_right _ hc)
    refine ⟨longest_of_stops ht hgoes hb, ?_⟩
    intro hpoint
    have := hb '.' hpoint
    simp [inNumber] at this

/-! ### Text literals -/

/-- The characters `b` stand in a text literal for `content`. None of them is a quote that would
end it. -/
inductive Body : List Char → List Char → Prop
  | nil : Body [] []
  | escape {d x : Char} {b content : List Char} (h : escape? d = some x) (hb : Body b content) :
      Body ('\\' :: d :: b) (x :: content)
  | plain {c : Char} {b content : List Char} (hc : c ≠ '"') (hesc : ¬ IsEscape c b)
      (hb : Body b content) : Body (c :: b) (c :: content)

theorem Body.not_closes {b content : List Char} (h : Body b content) : closes b = false := by
  induction h with
  | nil => rfl
  | escape hx hb ih => rw [closes_escape hx, ih]
  | plain hc hesc hb ih => rw [closes_cons hc hesc, ih]

/-- Only a backslash at its end would make a body change the meaning of a quote behind it. -/
theorem not_isEscape_append_quote {c : Char} {b : List Char} (hesc : ¬ IsEscape c b)
    (hlast : (c :: b).getLast? ≠ some '\\') (r : List Char) : ¬ IsEscape c (b ++ '"' :: r) := by
  cases b with
  | nil =>
    rintro ⟨rfl, -⟩
    simp at hlast
  | cons e b => exact hesc

theorem getLast?_ne_of_cons {c x : Char} {b : List Char} (h : (c :: b).getLast? ≠ some x) :
    b.getLast? ≠ some x := by
  cases b with
  | nil => simp
  | cons e b => simpa using h

theorem Body.closes_append {b content : List Char} (h : Body b content)
    (hlast : b.getLast? ≠ some '\\') (r : List Char) : closes (b ++ '"' :: r) = true := by
  induction h with
  | nil => rfl
  | escape hx hb ih =>
    rw [List.cons_append, List.cons_append, closes_escape hx]
    exact ih (getLast?_ne_of_cons (getLast?_ne_of_cons hlast))
  | plain hc hesc hb ih =>
    rw [List.cons_append, closes_cons hc (not_isEscape_append_quote hesc hlast r)]
    exact ih (getLast?_ne_of_cons hlast)

/-- A quote and a body, possibly with the quote that closes the literal. -/
def IsLiteral (t : List Char) : Prop :=
  ∃ b content, Body b content ∧
    (t = '"' :: b ∨ t = '"' :: b ++ ['"'] ∧ b.getLast? ≠ some '\\')

/-- No literal goes on behind the quote that closes it. -/
theorem longest_isLiteral {b content : List Char} (hb : Body b content)
    (hlast : b.getLast? ≠ some '\\') (behind : List Char) :
    Longest IsLiteral ('"' :: b ++ ['"']) behind := by
  refine ⟨⟨b, content, hb, .inr ⟨rfl, hlast⟩⟩, fun u _ => ?_⟩
  rintro ⟨b', content', hb', ht | ⟨ht, -⟩⟩
  · obtain rfl : b ++ '"' :: u = b' := by simpa using ht
    have := hb'.not_closes
    rw [hb.closes_append hlast] at this
    cases this
  · have hu : b ++ '"' :: u = b' ++ ['"'] := by simpa using ht
    rcases List.eq_nil_or_concat u with rfl | ⟨v, x, rfl⟩
    · rfl
    · obtain rfl : b ++ '"' :: v = b' := by
        have hsplit : (b ++ '"' :: v) ++ [x] = b' ++ ['"'] := by simpa using hu
        exact (List.append_inj' hsplit rfl).1
      have := hb'.not_closes
      rw [hb.closes_append hlast] at this
      cases this

/-! ### Lexemes -/

/-- The text spells the lexeme where it stands, in front of `behind`. -/
inductive Lexeme.Written : Lexeme → List Char → List Char → Prop
  /-- A number is not followed by a second point. -/
  | number {t behind : List Char} (h : Longest IsNumber t behind)
      (hpoint : behind.head? ≠ some '.') : Written (.number (String.ofList t)) t behind
  | hex {ds behind : List Char} (h : Longest IsHexNumber ('#' :: ds) behind) :
      Written (.hex (String.ofList ds)) ('#' :: ds) behind
  /-- A quote behind a backslash does not close a literal. -/
  | text {b content behind : List Char} (hb : Body b content) (hlast : b.getLast? ≠ some '\\') :
      Written (.text (String.ofList content)) ('"' :: b ++ ['"']) behind
  /-- Only at the end of the program may a literal be left open. -/
  | openText {b content : List Char} (hb : Body b content) :
      Written (.text (String.ofList content)) ('"' :: b) []
  | keyword {behind : List Char} (k : Keyword) (h : Longest IsWord k.spelling.toList behind) :
      Written (.keyword k) k.spelling.toList behind
  | connective {behind : List Char} (c : Connective) (h : Longest IsWord c.spelling.toList behind)
      (hspace : behind.head? = some ' ') : Written (.connective c) c.spelling.toList behind
  /-- A word is a name if it is not reserved and no connective before a space. -/
  | word {t behind : List Char} (h : Longest IsWord t behind)
      (hkeyword : ∀ k : Keyword, k.spelling.toList ≠ t)
      (hconnective : ∀ c : Connective, c.spelling.toList = t → behind.head? ≠ some ' ') :
      Written (.word (String.ofList t)) t behind
  /-- Two slashes start a comment. -/
  | symbol {behind : List Char} (s : Symbol) (h : Longest IsSymbol s.spelling.toList behind)
      (hslash : ¬ (s = .slash ∧ behind.head? = some '/')) :
      Written (.symbol s) s.spelling.toList behind

/-- The lexical class of a lexeme, as the texts that belong to it. -/
def Lexeme.Class : Lexeme → List Char → Prop
  | .number _ => IsNumber
  | .hex _ => IsHexNumber
  | .text _ => IsLiteral
  | .word _ | .keyword _ | .connective _ => IsWord
  | .symbol _ => IsSymbol
  | .eof => fun _ => False

/-- A lexeme is written with the longest text of its class that stands there. -/
theorem Lexeme.Written.longest {l : Lexeme} {t behind : List Char} (h : l.Written t behind) :
    Longest l.Class t behind := by
  cases h with
  | number h => exact h
  | hex h => exact h
  | text hb hlast => exact longest_isLiteral hb hlast behind
  | openText hb =>
    refine ⟨⟨_, _, hb, .inl rfl⟩, fun u hu _ => ?_⟩
    exact List.prefix_nil.1 hu
  | keyword k h => exact h
  | connective c h => exact h
  | word h => exact h
  | symbol s h => exact h

/-- Neither a lexeme nor a comment starts with the character. -/
structure StartsNothing (c : Char) : Prop where
  not_digit : c.isDigit = false
  not_letter : isAlphabetic c = false
  not_mark : c ≠ '#' ∧ c ≠ '"' ∧ c ≠ '{'
  not_symbol : ∀ s : Symbol, s.spelling.toList.head? ≠ some c

/-- The text spells no lexeme where it stands, in front of `behind`. -/
inductive Skipped : List Char → List Char → Prop
  | char {c : Char} {behind : List Char} (h : StartsNothing c) : Skipped [c] behind
  | comment {body behind : List Char} (h : '}' ∉ body) : Skipped ('{' :: body ++ ['}']) behind
  | lineComment {body behind : List Char} (h : ∀ c ∈ body, inLine c = true)
      (hstop : Stops inLine behind) : Skipped ('/' :: '/' :: body) behind

end BlockScript
