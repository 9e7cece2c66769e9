import BlockScript.Proofs.LexicalGrammar
import BlockScript.Text.Quoted

/-!
# Quoted text and what comes behind it

A text in quotes shows where it ends, and different texts look different.

* `Shown`: the three ways in which a character is shown; `Shown.append_inj`: each tells the
  character and where it ends.
* `quoted_append_inj`: the same of whole texts.
-/

namespace BlockScript.Text

/-! ### Code points -/

theorem digitChar_injective {n m : Nat} (hn : n < 16) (hm : m < 16)
    (h : n.digitChar = m.digitChar) : n = m := by
  have hall : ∀ n < 16, ∀ m < 16, n.digitChar = m.digitChar → n = m := by decide
  exact hall n hn m hm h

/-- Different numbers have different digits in base sixteen. -/
theorem toDigits_injective {n m : Nat} (h : Nat.toDigits 16 n = Nat.toDigits 16 m) : n = m := by
  induction n using Nat.strong_induction_on generalizing m with
  | _ n ih =>
    rw [Nat.toDigits_eq_if (by decide), Nat.toDigits_eq_if (n := m) (by decide)] at h
    split_ifs at h with hn hm hm
    · exact digitChar_injective hn hm (by simpa using h)
    · exact absurd h.symm (by simp [List.append_eq_cons_iff, Nat.toDigits_ne_nil])
    · exact absurd h (by simp [List.append_eq_cons_iff, Nat.toDigits_ne_nil])
    · obtain ⟨hinit, hlast⟩ := List.append_inj' h rfl
      have hdiv : n / 16 = m / 16 := ih (n / 16) (by omega) hinit
      have hmod : n % 16 = m % 16 :=
        digitChar_injective (Nat.mod_lt _ (by decide)) (Nat.mod_lt _ (by decide))
          (by simpa using hlast)
      omega

theorem ne_brace_of_mem_toDigits (n : Nat) : ∀ c ∈ Nat.toDigits 16 n, (c != '}') = true := by
  induction n using Nat.strong_induction_on with
  | _ n ih =>
    intro c hc
    rw [Nat.toDigits_eq_if (by decide)] at hc
    split_ifs at hc with hn
    · rw [List.mem_singleton.1 hc]
      simp
    · rcases List.mem_append.1 hc with hc | hc
      · exact ih (n / 16) (by omega) c hc
      · rw [List.mem_singleton.1 hc]
        simp

/-! ### Single characters -/

/-- The character that a backslash and the given character stand for. -/
def shortEscape? : Char → Option Char
  | '0' => some '\x00'
  | 't' => some '\t'
  | 'r' => some '\r'
  | 'n' => some '\n'
  | '\\' => some '\\'
  | '"' => some '"'
  | '\'' => some '\''
  | _ => none

/-- The text shows the character inside quotes. -/
inductive Shown : Char → List Char → Prop
  | plain {c : Char} (hquote : c ≠ '"') (hbackslash : c ≠ '\\') : Shown c [c]
  | short {c k : Char} (h : shortEscape? k = some c) : Shown c ['\\', k]
  | codePoint {c : Char} : Shown c (codePointEscape c)

theorem shown_escaped (isFirst : Bool) (c : Char) : Shown c (escaped isFirst c) := by
  unfold escaped
  split
  case h_8 hbackslash hquote _ =>
    split_ifs
    · exact .codePoint
    · exact .plain hquote hbackslash
    · exact .codePoint
  all_goals exact .short rfl

section Shown

variable {c d : Char} {s t u v : List Char}

/-- What shows a character does not start with the quote that would end the text. -/
theorem Shown.head_ne (h : Shown c s) : (s ++ u).head? ≠ some '"' := by
  cases h with
  | plain hquote hbackslash => simpa using hquote
  | short h => simp
  | codePoint => simp [codePointEscape]

/-- What shows a character tells the character and where it ends. -/
theorem Shown.append_inj (h : Shown c s) (h' : Shown d t) (heq : s ++ u = t ++ v) :
    c = d ∧ u = v := by
  cases h with
  | plain hquote hbackslash =>
    cases h' with
    | plain hquote' hbackslash' => simpa using heq
    | short h' => exact absurd (List.cons.inj heq).1 hbackslash
    | codePoint => exact absurd (List.cons.inj heq).1 hbackslash
  | @short k h =>
    cases h' with
    | plain hquote' hbackslash' => exact absurd (List.cons.inj heq).1.symm hbackslash'
    | short h' =>
      simp only [List.cons_append, List.nil_append, List.cons.injEq, true_and] at heq
      obtain ⟨rfl, rfl⟩ := heq
      exact ⟨Option.some.inj (h.symm.trans h'), rfl⟩
    | codePoint =>
      obtain rfl : k = 'u' := (List.cons.inj (List.cons.inj heq).2).1
      cases h
  | codePoint =>
    cases h' with
    | plain hquote' hbackslash' => exact absurd (List.cons.inj heq).1.symm hbackslash'
    | @short k h' =>
      obtain rfl : 'u' = k := (List.cons.inj (List.cons.inj heq).2).1
      cases h'
    | codePoint =>
      have hdigits : Nat.toDigits 16 c.toNat ++ '}' :: u = Nat.toDigits 16 d.toNat ++ '}' :: v := by
        simpa [codePointEscape] using heq
      have hstops (r : List Char) : Stops (· != '}') ('}' :: r) := stops_cons_iff.2 (by simp)
      obtain ⟨hcode, hrest⟩ := append_inj_of_stops (ne_brace_of_mem_toDigits _)
        (ne_brace_of_mem_toDigits _) (hstops u) (hstops v) hdigits
      exact ⟨Char.toNat_inj.1 (toDigits_injective hcode), List.tail_eq_of_cons_eq hrest⟩

end Shown

/-! ### Texts -/

theorem flatMap_escaped_append_inj {cs ds u v : List Char}
    (h : cs.flatMap (escaped false) ++ '"' :: u = ds.flatMap (escaped false) ++ '"' :: v) :
    cs = ds ∧ u = v := by
  induction cs generalizing ds with
  | nil =>
    cases ds with
    | nil => exact ⟨rfl, List.tail_eq_of_cons_eq h⟩
    | cons d ds =>
      rw [List.flatMap_cons, List.append_assoc] at h
      exact absurd (congrArg List.head? h).symm (shown_escaped false d).head_ne
  | cons c cs ih =>
    cases ds with
    | nil =>
      rw [List.flatMap_cons, List.append_assoc] at h
      exact absurd (congrArg List.head? h) (shown_escaped false c).head_ne
    | cons d ds =>
      simp only [List.flatMap_cons, List.append_assoc] at h
      obtain ⟨rfl, hrest⟩ := (shown_escaped false c).append_inj (shown_escaped false d) h
      obtain ⟨rfl, rfl⟩ := ih hrest
      exact ⟨rfl, rfl⟩

theorem quotedBody_append_inj {cs ds u v : List Char}
    (h : quotedBody cs ++ '"' :: u = quotedBody ds ++ '"' :: v) : cs = ds ∧ u = v := by
  cases cs with
  | nil =>
    cases ds with
    | nil => exact ⟨rfl, List.tail_eq_of_cons_eq h⟩
    | cons d ds =>
      rw [quotedBody, quotedBody, List.append_assoc] at h
      exact absurd (congrArg List.head? h).symm (shown_escaped true d).head_ne
  | cons c cs =>
    cases ds with
    | nil =>
      rw [quotedBody, quotedBody, List.append_assoc] at h
      exact absurd (congrArg List.head? h) (shown_escaped true c).head_ne
    | cons d ds =>
      simp only [quotedBody, List.append_assoc] at h
      obtain ⟨rfl, hrest⟩ := (shown_escaped true c).append_inj (shown_escaped true d) h
      obtain ⟨rfl, rfl⟩ := flatMap_escaped_append_inj hrest
      exact ⟨rfl, rfl⟩

/-- A text in quotes tells the text and where it ends. -/
theorem quoted_append_inj {s t : String} {u v : List Char}
    (h : (quoted s).toList ++ u = (quoted t).toList ++ v) : s = t ∧ u = v := by
  have hbody : quotedBody s.toList ++ '"' :: u = quotedBody t.toList ++ '"' :: v := by
    simpa [quoted] using h
  obtain ⟨htext, rfl⟩ := quotedBody_append_inj hbody
  exact ⟨String.toList_inj.1 htext, rfl⟩

end BlockScript.Text
