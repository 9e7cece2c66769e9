import BlockScript.Proofs.LexicalGrammar

/-!
# The first piece of a text

The scanner cuts a text where the lexical grammar does: what it takes first is a lexeme or skipped
text of the grammar, and what the grammar has first is taken.

* `Piece.Valid`: the piece is one of the lexical grammar.
* `Piece.number_valid`, `Piece.word_valid`, …: a piece that is taken is one of the grammar.
* `Piece.number_eq_ok`, `Piece.word_append`, …: a text of the grammar is taken.
* `Piece.first_eq_ok_iff`: both for the first piece of any text.
-/

namespace BlockScript

open Character Piece

namespace Piece

/-- The piece is a lexeme or skipped text, as the lexical grammar has it. -/
def Valid (p : Piece) : Prop :=
  match p.lexeme? with
  | some l => l.Written p.text p.rest
  | none => Skipped p.text p.rest

/-! ### Numbers -/

theorem number_valid {c : Char} {cs : List Char} {p : Piece} (hc : c.isDigit = true)
    (h : number (c :: cs) = .ok p) : p.Valid := by
  have hwhole : ∀ d ∈ (c :: cs).takeWhile Char.isDigit, d.isDigit = true :=
    fun d hd => List.mem_takeWhile_imp hd
  have hne : (c :: cs).takeWhile Char.isDigit ≠ [] := by simp [hc]
  have hstop := stops_dropWhile Char.isDigit (c :: cs)
  -- digits have ended, so what comes behind is no part of a number unless it is a point
  have hend : ∀ {b : List Char}, Stops Char.isDigit b → (∀ r, b ≠ '.' :: r) → Stops inNumber b := by
    intro b hb hpoint
    cases b with
    | nil => exact stops_nil _
    | cons d b =>
      have hd : d ≠ '.' := by
        rintro rfl
        exact hpoint b rfl
      simp [stops_cons_iff, inNumber, stops_cons_iff.1 hb, hd]
  unfold number at h
  simp only at h
  split at h
  · next r hr =>
    have hfraction : ∀ d ∈ r.takeWhile Char.isDigit, d.isDigit = true :=
      fun d hd => List.mem_takeWhile_imp hd
    split at h
    · cases h
    · next hpoint =>
      cases h
      have hlongest := longest_isNumber_iff.2 ⟨.pointed hne hwhole hfraction,
        hend (stops_dropWhile Char.isDigit r) hpoint⟩
      exact .number hlongest.1 hlongest.2
  · next hpoint =>
    cases h
    have hlongest := longest_isNumber_iff.2 ⟨.whole hne hwhole, hend hstop hpoint⟩
    exact .number hlongest.1 hlongest.2

theorem number_eq_ok {t b : List Char} (ht : IsNumber t) (hb : Stops inNumber b) :
    number (t ++ b) = .ok ⟨some (.number (String.ofList t)), t, b⟩ := by
  have hdigit : Stops Char.isDigit b := by
    intro c hc
    have := hb c hc
    simp only [inNumber, Bool.or_eq_false_iff] at this
    exact this.1
  have hpoint : ∀ r, b ≠ '.' :: r := by
    rintro r rfl
    rw [stops_cons_iff] at hb
    cases hb
  unfold number
  cases ht with
  | whole hne hds =>
    simp only [takeWhile_of_stops hds hdigit, dropWhile_of_stops hds hdigit]
  | @pointed ds fs hne hds hfs =>
    have hstop : Stops Char.isDigit ('.' :: (fs ++ b)) := by
      rw [stops_cons_iff]
      decide
    rw [List.append_assoc, List.cons_append]
    simp only [takeWhile_of_stops hds hstop, dropWhile_of_stops hds hstop,
      takeWhile_of_stops hfs hdigit, dropWhile_of_stops hfs hdigit]

/-! ### Text literals -/

theorem IsEscape.append {c : Char} {b : List Char} (h : IsEscape c b) (r : List Char) :
    IsEscape c (b ++ r) := by
  obtain ⟨hc, d, hd, hx⟩ := h
  cases b with
  | nil => simp at hd
  | cons e b => exact ⟨hc, d, hd, hx⟩

/-- What the body of a literal is: it runs up to the quote that closes it, or to the end. -/
theorem textBody_body (cs : List Char) :
    ∃ b, Body b (textBody cs).1 ∧
      ((textBody cs).2.1 = b ++ ['"'] ∧ b.getLast? ≠ some '\\' ∨
        (textBody cs).2.1 = b ∧ (textBody cs).2.2 = []) := by
  induction cs using body_induction with
  | nil => exact ⟨[], .nil, .inr ⟨rfl, rfl⟩⟩
  | quote r => exact ⟨[], .nil, .inl ⟨rfl, by simp⟩⟩
  | escape d x r hx ih =>
    obtain ⟨b, hb, hend⟩ := ih
    have hd : d ≠ '\\' := by
      rintro rfl
      cases hx
    rw [textBody_escape hx]
    refine ⟨'\\' :: d :: b, .escape hx hb, ?_⟩
    rcases hend with ⟨htext, hlast⟩ | ⟨htext, hrest⟩
    · refine .inl ⟨by simp [htext], ?_⟩
      cases b with
      | nil => simpa using hd
      | cons e b => simpa using hlast
    · exact .inr ⟨by simp [htext], hrest⟩
  | other c r hc hesc ih =>
    obtain ⟨b, hb, hend⟩ := ih
    have hr := textBody_text_append_rest r
    have hplain : ¬ IsEscape c b := by
      intro h
      apply hesc
      rcases hend with ⟨htext, -⟩ | ⟨htext, -⟩
      · rw [← hr, htext, List.append_assoc]
        exact h.append _
      · rw [← hr, htext]
        exact h.append _
    rw [textBody_cons hc hesc]
    refine ⟨c :: b, .plain hc hplain hb, ?_⟩
    rcases hend with ⟨htext, hlast⟩ | ⟨htext, hrest⟩
    · refine .inl ⟨by simp [htext], ?_⟩
      cases b with
      | nil =>
        -- a backslash here would escape the quote that comes next
        intro hback
        obtain rfl : c = '\\' := by simpa using hback
        apply hesc
        rw [← hr, htext]
        exact ⟨rfl, '"', rfl, rfl⟩
      | cons e b => simpa using hlast
    · exact .inr ⟨by simp [htext], hrest⟩

theorem textLiteral_valid (cs : List Char) : (textLiteral cs).Valid := by
  obtain ⟨b, hb, ⟨htext, hlast⟩ | ⟨htext, hrest⟩⟩ := textBody_body cs
  · unfold textLiteral
    simp only [htext]
    exact .text hb hlast
  · unfold textLiteral
    simp only [htext, hrest]
    exact .openText hb

end Piece

theorem Body.textBody_closed {b content : List Char} (h : Body b content)
    (hlast : b.getLast? ≠ some '\\') (r : List Char) :
    textBody (b ++ '"' :: r) = (content, b ++ ['"'], r) := by
  induction h with
  | nil => rfl
  | escape hx hb ih =>
    have hih := ih (getLast?_ne_of_cons (getLast?_ne_of_cons hlast))
    simp [textBody_escape hx, hih]
  | plain hc hesc hb ih =>
    have hih := ih (getLast?_ne_of_cons hlast)
    simp [textBody_cons hc (not_isEscape_append_quote hesc hlast r), hih]

theorem Body.textBody_open {b content : List Char} (h : Body b content) :
    textBody b = (content, b, []) := by
  induction h with
  | nil => rfl
  | escape hx hb ih => simp [textBody_escape hx, ih]
  | plain hc hesc hb ih => simp [textBody_cons hc hesc, ih]

/-! ### Words -/

theorem Keyword.isWord (k : Keyword) : IsWord k.spelling.toList := by
  cases k <;> exact ⟨_, _, rfl, by decide, List.all_eq_true.1 (by decide)⟩

theorem Connective.isWord (c : Connective) : IsWord c.spelling.toList := by
  cases c <;> exact ⟨_, _, rfl, by decide, List.all_eq_true.1 (by decide)⟩

theorem Keyword.spelling_injective : Function.Injective Keyword.spelling := by
  intro k k' h
  revert h
  cases k <;> cases k' <;> decide

theorem Connective.spelling_injective : Function.Injective Connective.spelling := by
  intro c c' h
  revert h
  cases c <;> cases c' <;> decide

theorem Keyword.spelling_ne_connective (k : Keyword) (c : Connective) :
    k.spelling ≠ c.spelling := by
  cases k <;> cases c <;> decide

theorem Keyword.ofWord?_spelling (k : Keyword) : Keyword.ofWord? k.spelling = some k := by
  cases k <;> rfl

namespace Piece

theorem inWord_space : inWord ' ' = false := by
  decide +kernel

theorem mem_spacedWords_iff {w : String × Lexeme} :
    w ∈ spacedWords ↔ (∃ c : Connective, w = (c.spelling, .connective c)) ∨
      ∃ k : Keyword, (k = .beginKw ∨ k = .endKw) ∧ w = (k.spelling, .keyword k) := by
  simp [spacedWords, Connective.mem_all, eq_comm]

theorem isWord_of_mem_spacedWords {w : String × Lexeme} (hw : w ∈ spacedWords) :
    IsWord w.1.toList := by
  rcases mem_spacedWords_iff.1 hw with ⟨c, rfl⟩ | ⟨k, -, rfl⟩
  · exact c.isWord
  · exact k.isWord

/-- A word and a space behind it are found exactly where this word ends before a space. -/
theorem spaced_isPrefixOf_iff {w t b : List Char} (hw : IsWord w) (ht : IsWord t)
    (hb : Stops inWord b) :
    (w ++ [' ']).isPrefixOf (t ++ b) = true ↔ w = t ∧ b.head? = some ' ' := by
  rw [List.isPrefixOf_iff_prefix]
  constructor
  · rintro ⟨r, hr⟩
    rw [List.append_assoc, List.singleton_append] at hr
    have hspace : Stops inWord (' ' :: r) := stops_cons_iff.2 inWord_space
    have htake := congrArg (List.takeWhile inWord) hr
    have hdrop := congrArg (List.dropWhile inWord) hr
    rw [takeWhile_of_stops hw.inWord hspace, takeWhile_of_stops ht.inWord hb] at htake
    rw [dropWhile_of_stops hw.inWord hspace, dropWhile_of_stops ht.inWord hb] at hdrop
    exact ⟨htake, by rw [← hdrop]; rfl⟩
  · rintro ⟨rfl, hspace⟩
    cases b with
    | nil => simp at hspace
    | cons c b =>
      obtain rfl : c = ' ' := by simpa using hspace
      exact ⟨b, by simp⟩

/-- What is read where a word ends. -/
theorem word_append {t b : List Char} (ht : IsWord t) (hb : Stops inWord b) :
    (∃ w ∈ spacedWords, w.1.toList = t ∧ b.head? = some ' ' ∧ word (t ++ b) = ⟨some w.2, t, b⟩) ∨
      (∀ w ∈ spacedWords, w.1.toList = t → b.head? ≠ some ' ') ∧
        word (t ++ b) = ⟨some (wordLexeme (String.ofList t)), t, b⟩ := by
  unfold word
  split
  · next w hfind =>
    have hmem := List.mem_of_find?_eq_some hfind
    have hprefix := List.find?_some hfind
    simp only [spaced_isPrefixOf_iff (isWord_of_mem_spacedWords hmem) ht hb] at hprefix
    obtain ⟨rfl, hspace⟩ := hprefix
    exact .inl ⟨w, hmem, rfl, hspace, by simp⟩
  · next hfind =>
    refine .inr ⟨fun w hw hwt hspace => ?_, ?_⟩
    · refine List.find?_eq_none.1 hfind w hw ?_
      rw [spaced_isPrefixOf_iff (isWord_of_mem_spacedWords hw) ht hb]
      exact ⟨hwt, hspace⟩
    · simp only [takeWhile_of_stops ht.inWord hb, dropWhile_of_stops ht.inWord hb]

/-- A word that is no connective before a space spells a keyword or a name. -/
theorem wordLexeme_written {t b : List Char} (h : Longest IsWord t b)
    (hspaced : ∀ w ∈ spacedWords, w.1.toList = t → b.head? ≠ some ' ') :
    (wordLexeme (String.ofList t)).Written t b := by
  unfold wordLexeme
  split
  · next k hk =>
    obtain rfl : k.spelling.toList = t := by
      rw [Keyword.spelling_of_ofWord? hk, String.toList_ofList]
    exact .keyword k h
  · next hk =>
    refine .word h (fun k hkt => ?_) fun c hct => ?_
    · refine Keyword.ofWord?_eq_none_iff.1 hk k ?_
      rw [← hkt, String.ofList_toList]
    · exact hspaced _ (mem_spacedWords_iff.2 (.inl ⟨c, rfl⟩)) hct

theorem word_valid {c : Char} (hc : isAlphabetic c = true) (cs : List Char) :
    (word (c :: cs)).Valid := by
  have hne : (c :: cs).takeWhile inWord = c :: cs.takeWhile inWord := by
    simp [inWord, isAlphanumeric_of_isAlphabetic hc]
  have ht : IsWord ((c :: cs).takeWhile inWord) :=
    ⟨c, cs.takeWhile inWord, hne, hc, fun d hd => List.mem_takeWhile_imp hd⟩
  have hb := stops_dropWhile inWord (c :: cs)
  have hlongest := longest_isWord_iff.2 ⟨ht, hb⟩
  have hcs := List.takeWhile_append_dropWhile (p := inWord) (l := c :: cs)
  rcases word_append ht hb with ⟨w, hw, hwt, hspace, hword⟩ | ⟨hspaced, hword⟩
  · rw [hcs] at hword
    rw [hword]
    rw [← hwt] at hlongest ⊢
    rcases mem_spacedWords_iff.1 hw with ⟨k, rfl⟩ | ⟨k, -, rfl⟩
    · exact .connective k hlongest hspace
    · exact .keyword k hlongest
  · rw [hcs] at hword
    rw [hword]
    exact wordLexeme_written hlongest hspaced

theorem word_keyword (k : Keyword) {b : List Char} (hb : Stops inWord b) :
    word (k.spelling.toList ++ b) = ⟨some (.keyword k), k.spelling.toList, b⟩ := by
  rcases word_append k.isWord hb with ⟨w, hw, hwt, -, hword⟩ | ⟨-, hword⟩
  · rcases mem_spacedWords_iff.1 hw with ⟨c, rfl⟩ | ⟨k', -, rfl⟩
    · exact absurd (String.toList_inj.1 hwt).symm (k.spelling_ne_connective c)
    · rw [Keyword.spelling_injective (String.toList_inj.1 hwt)] at hword
      exact hword
  · rw [hword, String.ofList_toList]
    simp [wordLexeme, Keyword.ofWord?_spelling]

theorem word_connective (c : Connective) {b : List Char} (hb : Stops inWord b)
    (hspace : b.head? = some ' ') :
    word (c.spelling.toList ++ b) = ⟨some (.connective c), c.spelling.toList, b⟩ := by
  rcases word_append c.isWord hb with ⟨w, hw, hwt, -, hword⟩ | ⟨hspaced, -⟩
  · rcases mem_spacedWords_iff.1 hw with ⟨c', rfl⟩ | ⟨k, -, rfl⟩
    · rw [Connective.spelling_injective (String.toList_inj.1 hwt)] at hword
      exact hword
    · exact absurd (String.toList_inj.1 hwt) (k.spelling_ne_connective c)
  · exact absurd hspace (hspaced _ (mem_spacedWords_iff.2 (.inl ⟨c, rfl⟩)) rfl)

theorem word_name {t b : List Char} (ht : IsWord t) (hb : Stops inWord b)
    (hkeyword : ∀ k : Keyword, k.spelling.toList ≠ t)
    (hconnective : ∀ c : Connective, c.spelling.toList = t → b.head? ≠ some ' ') :
    word (t ++ b) = ⟨some (.word (String.ofList t)), t, b⟩ := by
  rcases word_append ht hb with ⟨w, hw, hwt, hspace, -⟩ | ⟨-, hword⟩
  · rcases mem_spacedWords_iff.1 hw with ⟨c, rfl⟩ | ⟨k, -, rfl⟩
    · exact absurd hspace (hconnective c hwt)
    · exact absurd hwt (hkeyword k)
  · have hnone : Keyword.ofWord? (String.ofList t) = none := by
      refine Keyword.ofWord?_eq_none_iff.2 fun k hk => hkeyword k ?_
      rw [hk, String.toList_ofList]
    rw [hword]
    simp [wordLexeme, hnone]

end Piece

/-! ### Symbols -/

theorem Symbol.spelling_injective : Function.Injective Symbol.spelling := by
  intro s s' h
  revert h
  cases s <;> cases s' <;> decide

theorem Symbol.exists_spelling_eq_cons (s : Symbol) : ∃ c cs, s.spelling.toList = c :: cs := by
  cases s <;> exact ⟨_, _, rfl⟩

/-- No symbol starts like a lexeme of another class or like a comment between braces. -/
theorem Symbol.first_char {s : Symbol} {c : Char} (h : s.spelling.toList.head? = some c) :
    c.isDigit = false ∧ isAlphabetic c = false ∧ c ≠ '#' ∧ c ≠ '"' ∧ c ≠ '{' := by
  cases s <;> cases h <;> decide +kernel

namespace Piece

/-- The first symbol that fits is the longest, because the longer ones come first. -/
theorem longest_of_find? {cs : List Char} {s : Symbol}
    (h : Symbol.all.find? (fun s => s.spelling.toList.isPrefixOf cs) = some s) :
    ∃ b, cs = s.spelling.toList ++ b ∧ Longest IsSymbol s.spelling.toList b := by
  have hsorted : Symbol.all.Pairwise
      fun a b => b.spelling.toList.length ≤ a.spelling.toList.length := by decide
  obtain ⟨hfits, as, bs, hall, hbefore⟩ := List.find?_eq_some_iff_append.1 h
  obtain ⟨b, rfl⟩ := List.isPrefixOf_iff_prefix.1 hfits
  refine ⟨b, rfl, ⟨s, rfl⟩, fun u hu => ?_⟩
  rintro ⟨s', hs'⟩
  have hlen : s'.spelling.toList.length = s.spelling.toList.length + u.length := by
    rw [← hs', List.length_append]
  have hfits' : s'.spelling.toList.isPrefixOf (s.spelling.toList ++ b) = true := by
    rw [List.isPrefixOf_iff_prefix, ← hs']
    exact (List.prefix_append_right_inj _).2 hu
  have hmem : s' ∈ as ++ s :: bs := hall ▸ s'.mem_all
  rw [hall] at hsorted
  rcases List.mem_append.1 hmem with hmem | hmem
  · have := hbefore s' hmem
    simp [hfits'] at this
  · have hle : s'.spelling.toList.length ≤ s.spelling.toList.length := by
      rcases List.mem_cons.1 hmem with rfl | hmem
      · exact le_rfl
      · exact (List.pairwise_cons.1 (List.pairwise_append.1 hsorted).2.1).1 s' hmem
    exact List.length_eq_zero_iff.1 (by omega)

theorem find?_of_longest {s : Symbol} {b : List Char} (h : Longest IsSymbol s.spelling.toList b) :
    Symbol.all.find? (fun s' => s'.spelling.toList.isPrefixOf (s.spelling.toList ++ b)) =
      some s := by
  cases hfind : Symbol.all.find?
    fun s' => s'.spelling.toList.isPrefixOf (s.spelling.toList ++ b) with
  | none =>
    have := List.find?_eq_none.1 hfind s s.mem_all
    simp [List.isPrefixOf_iff_prefix] at this
  | some s' =>
    obtain ⟨b', hb', hlongest⟩ := longest_of_find? hfind
    rw [Symbol.spelling_injective (String.toList_inj.1 (hlongest.unique h hb'.symm))]

theorem symbolOrSkipped_valid {c : Char} {cs : List Char} {p : Piece} (hdigit : c.isDigit = false)
    (hletter : isAlphabetic c = false) (hmark : c ≠ '#' ∧ c ≠ '"' ∧ c ≠ '{')
    (hslash : ¬ (c = '/' ∧ cs.head? = some '/')) (h : symbolOrSkipped c cs = .ok p) : p.Valid := by
  unfold symbolOrSkipped at h
  split at h
  · next s hfind =>
    cases h
    obtain ⟨b, hb, hlongest⟩ := longest_of_find? hfind
    have hrest : (c :: cs).drop s.spelling.toList.length = b := by simp [hb]
    show Lexeme.Written _ _ _
    rw [hrest]
    refine .symbol s hlongest ?_
    rintro ⟨rfl, hb'⟩
    obtain ⟨rfl, rfl⟩ : c = '/' ∧ cs = b := by simpa [Symbol.spelling] using hb
    exact hslash ⟨rfl, hb'⟩
  · split at h
    · cases h
    · next hstart =>
      cases h
      refine .char ⟨hdigit, hletter, hmark, fun s hs => hstart ?_⟩
      exact List.any_eq_true.2 ⟨s, s.mem_all, by simp [hs]⟩

/-! ### The first piece -/

/-- The first piece of a text is a lexeme or skipped text of the lexical grammar. -/
theorem first_valid {c : Char} {cs : List Char} {p : Piece} (h : first c cs = .ok p) : p.Valid := by
  unfold first at h
  split_ifs at h with hdigit hhash hquote hslash hbrace hletter
  · exact number_valid hdigit h
  · cases h
    refine .hex (longest_isHexNumber_iff.2 ⟨fun d hd => List.mem_takeWhile_imp hd, ?_⟩)
    exact stops_dropWhile isHexDigit cs
  · cases h
    exact textLiteral_valid cs
  · cases h
    obtain ⟨rfl, hnext⟩ := hslash
    cases cs with
    | nil => simp at hnext
    | cons d cs =>
      obtain rfl : d = '/' := by simpa using hnext
      have htext : ('/' :: '/' :: cs).takeWhile inLine = '/' :: '/' :: cs.takeWhile inLine := rfl
      show Skipped _ _
      unfold lineComment
      simp only [htext]
      refine .lineComment (fun d hd => List.mem_takeWhile_imp hd) ?_
      exact stops_dropWhile inLine _
  · unfold blockComment at h
    split at h
    · cases h
    · next d rest hrest =>
      cases h
      have hclose := stops_dropWhile (· != '}') cs
      rw [hrest, stops_cons_iff] at hclose
      obtain rfl : d = '}' := by simpa using hclose
      refine .comment fun hmem => ?_
      have := List.mem_takeWhile_imp hmem
      simp at this
  · cases h
    exact word_valid hletter cs
  · exact symbolOrSkipped_valid (by simpa using hdigit) (by simpa using hletter)
      ⟨hhash, hquote, hbrace⟩ hslash h

theorem first_of_isAlphabetic {c : Char} (hc : isAlphabetic c = true) (cs : List Char) :
    first c cs = .ok (word (c :: cs)) := by
  have hdigit : c.isDigit = false := by
    by_contra hd
    rw [not_isAlphabetic_of_isDigit (by simpa using hd)] at hc
    cases hc
  have hne : ∀ d, isAlphabetic d = false → c ≠ d := by
    rintro d hd rfl
    rw [hd] at hc
    cases hc
  have hhash := hne '#' (by decide +kernel)
  have hquote := hne '"' (by decide +kernel)
  have hslash := hne '/' (by decide +kernel)
  have hbrace := hne '{' (by decide +kernel)
  simp [first, hdigit, hhash, hquote, hslash, hbrace, hc]

theorem first_of_isWord {t b : List Char} (ht : IsWord t) {c : Char} {cs : List Char}
    (heq : c :: cs = t ++ b) : first c cs = .ok (word (t ++ b)) := by
  obtain ⟨d, ds, rfl, hd, -⟩ := ht
  injection heq with hcd hcs
  rw [hcd, hcs]
  exact first_of_isAlphabetic hd _

theorem first_of_symbol {s : Symbol} {b : List Char} (h : Longest IsSymbol s.spelling.toList b)
    (hslash : ¬ (s = .slash ∧ b.head? = some '/')) {c : Char} {cs : List Char}
    (heq : c :: cs = s.spelling.toList ++ b) :
    first c cs = .ok ⟨some (.symbol s), s.spelling.toList, b⟩ := by
  have hhead : s.spelling.toList.head? = some c := by
    obtain ⟨d, ds, hs⟩ := s.exists_spelling_eq_cons
    rw [hs] at heq ⊢
    injection heq with hcd
    rw [hcd, List.head?_cons]
  obtain ⟨hdigit, hletter, hhash, hquote, hbrace⟩ := Symbol.first_char hhead
  have hcomment : ¬ (c = '/' ∧ cs.head? = some '/') := by
    rintro ⟨rfl, hnext⟩
    -- no other symbol starts with a slash
    obtain rfl : s = .slash := by
      cases s <;> cases hhead
      rfl
    obtain rfl : cs = b := by simpa [Symbol.spelling] using heq
    exact hslash ⟨rfl, hnext⟩
  have hsymbol : symbolOrSkipped c cs = .ok ⟨some (.symbol s), s.spelling.toList, b⟩ := by
    unfold symbolOrSkipped
    rw [heq, find?_of_longest h]
    simp
  simp [first, hdigit, hletter, hhash, hquote, hbrace, hcomment, hsymbol]

theorem first_of_startsNothing {c : Char} (h : StartsNothing c) (cs : List Char) :
    first c cs = .ok ⟨none, [c], cs⟩ := by
  have hfind : (Symbol.all.find? fun s => s.spelling.toList.isPrefixOf (c :: cs)) = none := by
    rw [List.find?_eq_none]
    intro s _ hfits
    obtain ⟨d, ds, hs⟩ := s.exists_spelling_eq_cons
    refine h.not_symbol s ?_
    rw [hs, List.isPrefixOf_iff_prefix, List.cons_prefix_cons] at hfits
    rw [hs, hfits.1, List.head?_cons]
  have hstart : (Symbol.all.any fun s => s.spelling.toList.head? == some c) = false := by
    rw [List.any_eq_false]
    intro s _
    simpa using h.not_symbol s
  have hslash : c ≠ '/' := by
    rintro rfl
    exact h.not_symbol .slash rfl
  have hskipped : symbolOrSkipped c cs = .ok ⟨none, [c], cs⟩ := by
    simp [symbolOrSkipped, hfind, hstart]
  simp [first, h.not_digit, h.not_letter, h.not_mark, hslash, hskipped]

end Piece

open Piece

/-- A text that spells a lexeme is the first piece where it stands. -/
theorem Lexeme.Written.first_eq {l : Lexeme} {t b : List Char} (h : l.Written t b) {c : Char}
    {cs : List Char} (heq : c :: cs = t ++ b) : first c cs = .ok ⟨some l, t, b⟩ := by
  cases h with
  | number h hpoint =>
    obtain ⟨ht, hb⟩ := longest_isNumber_iff.1 ⟨h, hpoint⟩
    obtain ⟨d, ds, rfl, hd⟩ := ht.exists_eq_cons
    have hfirst : first c cs = Piece.number (c :: cs) := by
      obtain ⟨rfl, -⟩ : c = d ∧ cs = ds ++ b := by simpa using heq
      simp [first, hd]
    rw [hfirst, heq, number_eq_ok ht hb]
  | @hex ds _ h =>
    obtain ⟨hds, hb⟩ := longest_isHexNumber_iff.1 h
    obtain ⟨rfl, rfl⟩ : c = '#' ∧ cs = ds ++ b := by simpa using heq
    show Except.ok (hexNumber _) = _
    unfold hexNumber
    simp only [takeWhile_of_stops hds hb, dropWhile_of_stops hds hb]
  | @text body content _ hb hlast =>
    obtain ⟨rfl, rfl⟩ : c = '"' ∧ cs = body ++ '"' :: b := by simpa using heq
    show Except.ok (textLiteral _) = _
    simp [textLiteral, hb.textBody_closed hlast b]
  | @openText body content hb =>
    obtain ⟨rfl, rfl⟩ : c = '"' ∧ cs = body := by simpa using heq
    show Except.ok (textLiteral _) = _
    simp [textLiteral, hb.textBody_open]
  | keyword k h =>
    obtain ⟨ht, hb⟩ := longest_isWord_iff.1 h
    rw [first_of_isWord ht heq, word_keyword k hb]
  | connective k h hspace =>
    obtain ⟨ht, hb⟩ := longest_isWord_iff.1 h
    rw [first_of_isWord ht heq, word_connective k hb hspace]
  | word h hkeyword hconnective =>
    obtain ⟨ht, hb⟩ := longest_isWord_iff.1 h
    rw [first_of_isWord ht heq, word_name ht hb hkeyword hconnective]
  | symbol s h hslash => exact first_of_symbol h hslash heq

/-- A text that is skipped is the first piece where it stands. -/
theorem Skipped.first_eq {t b : List Char} (h : Skipped t b) {c : Char} {cs : List Char}
    (heq : c :: cs = t ++ b) : first c cs = .ok ⟨none, t, b⟩ := by
  cases h with
  | @char d _ h =>
    obtain ⟨rfl, rfl⟩ : c = d ∧ cs = b := by simpa using heq
    exact first_of_startsNothing h _
  | @comment body _ h =>
    obtain ⟨rfl, rfl⟩ : c = '{' ∧ cs = body ++ '}' :: b := by simpa using heq
    have hbody : ∀ d ∈ body, (d != '}') = true := by
      intro d hd
      rw [bne_iff_ne]
      rintro rfl
      exact h hd
    have hstop : Stops (· != '}') ('}' :: b) := by
      rw [stops_cons_iff]
      decide
    show blockComment _ = _
    unfold blockComment
    simp only [takeWhile_of_stops hbody hstop, dropWhile_of_stops hbody hstop]
  | @lineComment body _ h hstop =>
    obtain ⟨rfl, rfl⟩ : c = '/' ∧ cs = '/' :: (body ++ b) := by simpa using heq
    have hall : ∀ d ∈ '/' :: '/' :: body, inLine d = true := by
      intro d hd
      rcases List.mem_cons.1 hd with rfl | hd
      · rfl
      · rcases List.mem_cons.1 hd with rfl | hd
        · rfl
        · exact h d hd
    show Except.ok (Piece.lineComment ('/' :: '/' :: body ++ b)) = _
    unfold Piece.lineComment
    rw [takeWhile_of_stops hall hstop, dropWhile_of_stops hall hstop]

/-- **The first piece of a text** is the lexeme or the skipped text that the lexical grammar has
there. -/
theorem Piece.first_eq_ok_iff {c : Char} {cs : List Char} {p : Piece} :
    first c cs = .ok p ↔ p.Valid ∧ p.text ++ p.rest = c :: cs := by
  constructor
  · intro h
    exact ⟨first_valid h, first_text_append_rest h⟩
  · rintro ⟨hvalid, heq⟩
    obtain ⟨l?, t, b⟩ := p
    cases l? with
    | none => exact Skipped.first_eq hvalid heq.symm
    | some l => exact Lexeme.Written.first_eq hvalid heq.symm

end BlockScript
