import BlockScript.Proofs.Decomposition

/-!
# Well-formed lexemes and their spelling

Every lexeme that a program is cut into carries a payload of the right form. The other way round, a
lexeme of the right form can be spelled so that it is read back, unless it is a text that ends in a
backslash or a name that reads as a connective.

* `Lexeme.WellFormed`: the payload has the form that the kind of lexeme asks for.
* `Lexeme.Written.wellFormed`: what is written in a program is well-formed.
* `Lexeme.Spellable`, `Lexeme.spelling`: the lexemes that can be spelled, and how.
* `scan_spelled`: scanning undoes spelling.
-/

namespace BlockScript

open Character Piece

/-! ### Contents of text literals -/

/-- No backslash stands before an `n` or a `t`, where it would be read as an escape. -/
def Unescaped (content : List Char) : Prop :=
  ∀ u d v, content = u ++ '\\' :: d :: v → d ≠ 'n' ∧ d ≠ 't'

theorem unescaped_nil : Unescaped [] := by
  intro u d v h
  simp at h

theorem unescaped_cons_iff {c : Char} {cs : List Char} :
    Unescaped (c :: cs) ↔ (c = '\\' → ∀ d ∈ cs.head?, d ≠ 'n' ∧ d ≠ 't') ∧ Unescaped cs := by
  constructor
  · intro h
    refine ⟨?_, fun u d v hcs => h (c :: u) d v (by rw [hcs]; rfl)⟩
    rintro rfl d hd
    cases cs with
    | nil => simp at hd
    | cons e cs =>
      obtain rfl : e = d := by simpa using hd
      exact h [] e cs rfl
  · rintro ⟨hc, hcs⟩ u d v heq
    cases u with
    | nil =>
      obtain ⟨rfl, rfl⟩ := List.cons.inj heq
      exact hc rfl d rfl
    | cons e u =>
      obtain ⟨rfl, rfl⟩ := List.cons.inj heq
      exact hcs u d v rfl

/-- What an escape stands for is neither a backslash nor one of the letters of escapes. -/
theorem escape?_eq_some {d x : Char} (h : escape? d = some x) : x ≠ '\\' ∧ x ≠ 'n' ∧ x ≠ 't' := by
  unfold escape? at h
  split at h <;> cases h <;> decide

theorem Body.unescaped {b content : List Char} (h : Body b content) : Unescaped content := by
  induction h with
  | nil => exact unescaped_nil
  | escape hx hb ih =>
    rw [unescaped_cons_iff]
    exact ⟨fun hback => absurd hback (escape?_eq_some hx).1, ih⟩
  | @plain c b content hc hesc hb ih =>
    rw [unescaped_cons_iff]
    refine ⟨?_, ih⟩
    rintro rfl d hd
    -- the next character of the literal is no letter of an escape, and no escape stands for one
    cases hb with
    | nil => simp at hd
    | escape hx hb =>
      obtain rfl : _ = d := by simpa using hd
      exact (escape?_eq_some hx).2
    | @plain e b content he hesc' hb =>
      obtain rfl : e = d := by simpa using hd
      constructor
      · rintro rfl
        exact hesc ⟨rfl, 'n', rfl, rfl⟩
      · rintro rfl
        exact hesc ⟨rfl, 't', rfl, rfl⟩

/-- A literal whose body does not end in a backslash denotes a text that does not either. -/
theorem Body.getLast?_ne {b content : List Char} (h : Body b content)
    (hlast : b.getLast? ≠ some '\\') : content.getLast? ≠ some '\\' := by
  induction h with
  | nil => simp
  | @escape d x b content hx hb ih =>
    have hih := ih (getLast?_ne_of_cons (getLast?_ne_of_cons hlast))
    cases content with
    | nil => simpa using (escape?_eq_some hx).1
    | cons e content => simpa using hih
  | @plain c b content hc hesc hb ih =>
    have hih := ih (getLast?_ne_of_cons hlast)
    cases hb with
    | nil => exact hlast
    | escape hx hb => simpa using hih
    | plain he hesc' hb => simpa using hih

/-! ### Well-formed lexemes -/

/-- The payload of the lexeme has the form that its kind asks for. The end of input is no lexeme of
a program. -/
def Lexeme.WellFormed : Lexeme → Prop
  | .number w => IsNumber w.toList
  | .hex w => ∀ c ∈ w.toList, isHexDigit c = true
  | .word w => IsWord w.toList ∧ ∀ k : Keyword, k.spelling ≠ w
  | .text w => Unescaped w.toList
  | .keyword _ | .symbol _ | .connective _ => True
  | .eof => False

/-- What is written in a program is well-formed. -/
theorem Lexeme.Written.wellFormed {l : Lexeme} {t b : List Char} (h : l.Written t b) :
    l.WellFormed := by
  cases h with
  | number h hpoint => simpa [WellFormed] using h.1
  | hex h => simpa [WellFormed] using (longest_isHexNumber_iff.1 h).1
  | text hb hlast => simpa [WellFormed] using hb.unescaped
  | openText hb => simpa [WellFormed] using hb.unescaped
  | keyword k h => trivial
  | connective c h hspace => trivial
  | @word t _ h hkeyword hconnective =>
    have hnot : ∀ k : Keyword, k.spelling ≠ String.ofList t := by
      intro k hk
      apply hkeyword k
      rw [hk, String.toList_ofList]
    exact ⟨by simpa using h.1, hnot⟩
  | symbol s h hslash => trivial

theorem Cut.wellFormed {behind : List Char} {line : Nat} {cs : List Char} {ts : List Token}
    (h : Cut behind line cs ts) : ∀ t ∈ ts, t.lexeme.WellFormed := by
  induction h with
  | nil => simp
  | skipped h hcs ih => exact ih
  | lexeme h hcs ih =>
    intro t ht
    rcases List.mem_cons.1 ht with rfl | ht
    · exact h.wellFormed
    · exact ih t ht

/-! ### Spelling -/

/-- A lexeme that can be spelled: a name must not read as a connective, and a backslash at the end
of a text would keep the literal open. -/
structure Lexeme.Spellable (l : Lexeme) : Prop where
  wellFormed : l.WellFormed
  not_connective : ∀ c : Connective, l ≠ .word c.spelling
  not_open : ∀ w, l = .text w → w.toList.getLast? ≠ some '\\'

/-- A character as it is written in a text literal. -/
def escaped (c : Char) : List Char :=
  if c = '"' then ['\\', '"']
  else if c = '\n' then ['\\', 'n']
  else if c = '\t' then ['\\', 't']
  else [c]

/-- The lexeme as it is written in a program. -/
def Lexeme.spelling : Lexeme → List Char
  | .number w | .word w => w.toList
  | .hex w => '#' :: w.toList
  | .text w => '"' :: w.toList.flatMap escaped ++ ['"']
  | .keyword k => k.spelling.toList
  | .symbol s => s.spelling.toList
  | .connective c => c.spelling.toList
  | .eof => []

/-- The lexemes as they are written in a program, each with a space behind it. -/
def spelled (ls : List Lexeme) : List Char :=
  ls.flatMap fun l => l.spelling ++ [' ']

theorem escaped_cases (c : Char) :
    (∃ d, escape? d = some c ∧ escaped c = ['\\', d]) ∨
      (c ≠ '"' ∧ c ≠ '\n' ∧ c ≠ '\t') ∧ escaped c = [c] := by
  unfold escaped
  by_cases hquote : c = '"'
  · exact .inl ⟨'"', by simp [escape?, hquote], by simp [hquote]⟩
  by_cases hbreak : c = '\n'
  · exact .inl ⟨'n', by simp [escape?, hbreak], by simp [hbreak]⟩
  by_cases htab : c = '\t'
  · exact .inl ⟨'t', by simp [escape?, htab], by simp [htab]⟩
  · exact .inr ⟨⟨hquote, hbreak, htab⟩, by simp [hquote, hbreak, htab]⟩

/-- The escaped content of a literal is a body that denotes it. -/
theorem body_flatMap_escaped {content : List Char} (h : Unescaped content)
    (hlast : content.getLast? ≠ some '\\') : Body (content.flatMap escaped) content := by
  induction content with
  | nil => exact .nil
  | cons c cs ih =>
    obtain ⟨hc, hcs⟩ := unescaped_cons_iff.1 h
    have hbody := ih hcs (getLast?_ne_of_cons hlast)
    rw [List.flatMap_cons]
    rcases escaped_cases c with ⟨d, hd, hesc⟩ | ⟨⟨hquote, -⟩, hesc⟩
    · rw [hesc]
      exact .escape hd hbody
    · rw [hesc]
      refine .plain hquote ?_ hbody
      rintro ⟨rfl, e, he, hsome⟩
      -- a backslash is not the last character, and the next one neither is nor becomes an escape
      cases cs with
      | nil => simp at hlast
      | cons x xs =>
        obtain ⟨hn, ht⟩ := hc rfl x rfl
        rw [List.flatMap_cons] at he
        rcases escaped_cases x with ⟨d, -, hx⟩ | ⟨⟨hquote', -⟩, hx⟩
        · obtain rfl : '\\' = e := by simpa [hx] using he
          cases hsome
        · obtain rfl : x = e := by simpa [hx] using he
          unfold escape? at hsome
          split at hsome
          · exact hquote' rfl
          · exact hn rfl
          · exact ht rfl
          · cases hsome

theorem getLast?_flatMap_escaped_ne {content : List Char} (h : content.getLast? ≠ some '\\') :
    (content.flatMap escaped).getLast? ≠ some '\\' := by
  rcases List.eq_nil_or_concat content with rfl | ⟨cs, c, rfl⟩
  · simp
  · rw [List.concat_eq_append] at h ⊢
    rw [List.flatMap_append, List.flatMap_singleton]
    rcases escaped_cases c with ⟨d, hd, hesc⟩ | ⟨-, hesc⟩
    · have hne : d ≠ '\\' := by
        rintro rfl
        cases hd
      simpa [hesc] using hne
    · simpa [hesc] using h

theorem longest_isSymbol_space (s : Symbol) (r : List Char) :
    Longest IsSymbol s.spelling.toList (' ' :: r) := by
  have hspace : ∀ s : Symbol, ' ' ∉ s.spelling.toList := by
    intro s
    cases s <;> decide
  refine ⟨⟨s, rfl⟩, fun u hu => ?_⟩
  rintro ⟨s', hs'⟩
  cases u with
  | nil => rfl
  | cons c u =>
    obtain ⟨_, heq, -⟩ := List.cons_prefix_iff.1 hu
    obtain ⟨rfl, -⟩ := List.cons.inj heq
    refine absurd ?_ (hspace s')
    rw [← hs']
    simp

/-- The spelling of a lexeme spells it where a space comes behind. -/
theorem Lexeme.Spellable.written {l : Lexeme} (h : l.Spellable) (r : List Char) :
    l.Written l.spelling (' ' :: r) := by
  have hword : ∀ {t : List Char}, IsWord t → Longest IsWord t (' ' :: r) := by
    intro t ht
    exact longest_isWord_iff.2 ⟨ht, stops_cons_iff.2 inWord_space⟩
  cases l with
  | number w =>
    have hwell : IsNumber w.toList := h.wellFormed
    have hlongest := (longest_isNumber_iff (b := ' ' :: r)).2 ⟨hwell, stops_cons_iff.2 (by decide)⟩
    have hwritten := Written.number hlongest.1 hlongest.2
    rwa [String.ofList_toList] at hwritten
  | hex w =>
    have hlongest := (longest_isHexNumber_iff (b := ' ' :: r)).2
      ⟨h.wellFormed, stops_cons_iff.2 (by decide)⟩
    have hwritten := Written.hex hlongest
    rwa [String.ofList_toList] at hwritten
  | word w =>
    obtain ⟨hwell, hkeyword⟩ : IsWord w.toList ∧ ∀ k : Keyword, k.spelling ≠ w := h.wellFormed
    have hwritten : Written (.word (String.ofList w.toList)) w.toList (' ' :: r) := by
      refine .word (hword hwell) (fun k hk => ?_) fun c hc => ?_
      · exact absurd (String.toList_inj.1 hk) (hkeyword k)
      · exact absurd (by rw [String.toList_inj.1 hc]) (h.not_connective c)
    rwa [String.ofList_toList] at hwritten
  | text w =>
    have hopen := h.not_open w rfl
    have hwritten : Written (.text (String.ofList w.toList)) (spelling (.text w)) (' ' :: r) :=
      .text (body_flatMap_escaped h.wellFormed hopen) (getLast?_flatMap_escaped_ne hopen)
    rwa [String.ofList_toList] at hwritten
  | keyword k => exact .keyword k (hword k.isWord)
  | symbol s => exact .symbol s (longest_isSymbol_space s r) (by simp)
  | connective c => exact .connective c (hword c.isWord) rfl
  | eof => exact absurd h.wellFormed (by simp [WellFormed])

theorem newline_not_mem_escaped (c : Char) : '\n' ∉ escaped c := by
  rcases escaped_cases c with ⟨d, hd, hesc⟩ | ⟨⟨-, hbreak, -⟩, hesc⟩
  · have hne : '\n' ≠ d := by
      rintro rfl
      cases hd
    simp [hesc, hne]
  · simpa [hesc] using hbreak.symm

/-- Nothing that is spelled runs over a line break. -/
theorem Lexeme.Spellable.newline_not_mem {l : Lexeme} (h : l.Spellable) : '\n' ∉ l.spelling := by
  have hchars : ∀ {q : Char → Bool} {t : List Char}, (∀ c ∈ t, q c = true) → q '\n' = false →
      '\n' ∉ t := by
    intro q t ht hq hmem
    rw [ht _ hmem] at hq
    cases hq
  have hword : ∀ {t : List Char}, IsWord t → '\n' ∉ t := fun ht => hchars ht.inWord inWord_newline
  cases l with
  | number w =>
    have hwell : IsNumber w.toList := h.wellFormed
    exact hchars hwell.inNumber (by decide)
  | hex w =>
    have hdigits := hchars (q := isHexDigit) h.wellFormed (by decide)
    simpa [spelling] using hdigits
  | word w =>
    have hwell : IsWord w.toList ∧ _ := h.wellFormed
    exact hword hwell.1
  | text w =>
    have hbody : '\n' ∉ w.toList.flatMap escaped := by
      simpa using fun c _ => newline_not_mem_escaped c
    simpa [spelling] using hbody
  | keyword k => exact hword k.isWord
  | symbol s => cases s <;> decide
  | connective c => exact hword c.isWord
  | eof => simp [spelling]

theorem startsNothing_space : StartsNothing ' ' where
  not_digit := by decide
  not_letter := by decide +kernel
  not_mark := by decide
  not_symbol := by
    intro s
    cases s <;> decide

/-- Spelled lexemes are cut where they were joined, and all of them stand on the first line. -/
theorem cut_spelled {ls : List Lexeme} (h : ∀ l ∈ ls, l.Spellable) :
    Cut [] 1 (spelled ls) (ls.map fun l => ⟨l, 1⟩) := by
  induction ls with
  | nil => exact .nil
  | cons l ls ih =>
    have hl := h l (by simp)
    have hls := ih fun l' hl' => h l' (by simp [hl'])
    have hcount : l.spelling.count '\n' = 0 := List.count_eq_zero.2 hl.newline_not_mem
    have hsplit : spelled (l :: ls) = l.spelling ++ ([' '] ++ spelled ls) := by
      simp [spelled]
    rw [hsplit]
    refine .lexeme (hl.written _) (.skipped (.char startsNothing_space) ?_)
    rw [hcount]
    exact hls

/-- **Scanning undoes spelling.** -/
theorem scan_spelled {ls : List Lexeme} (h : ∀ l ∈ ls, l.Spellable) :
    scan (String.ofList (spelled ls)) = .ok ⟨ls.map fun l => ⟨l, 1⟩, 1⟩ := by
  have hcount : (spelled ls).count '\n' = 0 := by
    rw [List.count_eq_zero]
    intro hmem
    obtain ⟨l, hl, hbreak⟩ := List.mem_flatMap.1 hmem
    rcases List.mem_append.1 hbreak with hbreak | hbreak
    · exact (h l hl).newline_not_mem hbreak
    · simp at hbreak
  unfold scan
  rw [String.toList_ofList, scanFrom_eq_ok_iff]
  exact ⟨_, cut_spelled h, by simp [hcount]⟩

theorem scan_android_and_text :
    scan "android and \"\\\\\"\\n\" # " =
      .ok ⟨[⟨.word "android", 1⟩, ⟨.connective .conj, 1⟩, ⟨.text "\\\"\n", 1⟩, ⟨.hex "", 1⟩],
        1⟩ := by
  have hword : Lexeme.Spellable (.word "android") := by
    have hrest := List.all_eq_true.1 (show "ndroid".toList.all inWord = true by decide)
    refine ⟨⟨⟨_, _, rfl, by decide, hrest⟩, fun k => ?_⟩, fun c => ?_, by simp⟩
    · cases k <;> decide
    · cases c <;> decide
  have htext : Lexeme.Spellable (.text "\\\"\n") := by
    refine ⟨?_, by simp, by simp⟩
    simp [Lexeme.WellFormed, unescaped_cons_iff, unescaped_nil]
  refine @scan_spelled [.word "android", .connective .conj, .text "\\\"\n", .hex ""] ?_
  intro l hl
  simp only [List.mem_cons, List.not_mem_nil, or_false] at hl
  rcases hl with rfl | rfl | rfl | rfl
  · exact hword
  · exact ⟨trivial, by simp, by simp⟩
  · exact htext
  · exact ⟨by simp [Lexeme.WellFormed], by simp, by simp⟩

end BlockScript
