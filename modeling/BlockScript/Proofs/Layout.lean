import BlockScript.Proofs.Decomposition

/-!
# Layout between two programs

A line break ends every lexeme and every open comment on its line. So two texts with a line break
and more layout between them are cut as each of them is alone, and only the lines of the second
text tell what stands in front of it.

* `Layout`: comments that are closed and characters that start nothing.
* `Separator`: a line break and layout behind it.
* `scanFrom_append_newline_of_error`: a fault in front of a line break is found there too.
* `scan_append_separator`: the tokens of two texts with a separator between them.
-/

namespace BlockScript

open Piece

/-- Comments and characters that start nothing. A comment to the end of its line has a line break
behind it. -/
inductive Layout : List Char → Prop
  | nil : Layout []
  | char {c : Char} {g : List Char} (h : StartsNothing c) (hg : Layout g) : Layout (c :: g)
  | comment {body g : List Char} (h : '}' ∉ body) (hg : Layout g) :
      Layout ('{' :: body ++ '}' :: g)
  | lineComment {body g : List Char} (h : ∀ c ∈ body, inLine c = true) (hg : Layout g) :
      Layout ('/' :: '/' :: body ++ '\n' :: g)

/-- A line break and layout behind it. -/
def Separator (g : List Char) : Prop :=
  ∃ g', g = '\n' :: g' ∧ Layout g'

theorem startsNothing_newline : StartsNothing '\n' where
  not_digit := by decide
  not_letter := isAlphabetic_newline
  not_mark := by decide
  not_symbol := by
    intro s
    cases s <;> decide

/-- Layout is skipped, whatever comes behind it. -/
theorem Layout.gap {g : List Char} (h : Layout g) (behind : List Char) : Gap behind g := by
  induction h with
  | nil => exact .nil
  | char h hg ih => exact .cons (.char h) ih
  | @comment body g h hg ih =>
    have hgap : Gap behind (('{' :: body ++ ['}']) ++ g) := .cons (.comment h) ih
    simpa using hgap
  | @lineComment body g h hg ih =>
    have hbreak : Gap behind ('\n' :: g) := .cons (.char startsNothing_newline) ih
    refine .cons (.lineComment h ?_) hbreak
    rw [List.cons_append, stops_cons_iff]
    decide

theorem Gap.scanFrom_append {behind g : List Char} (h : Gap behind g) (line : Nat)
    (found : List Token) :
    scanFrom line found (g ++ behind) = scanFrom (line + g.count '\n') found behind := by
  induction h generalizing line with
  | nil => simp
  | cons h hg ih =>
    rw [List.append_assoc, h.scanFrom_append, ih, List.count_append, Nat.add_assoc]

/-- A fault in front of a line break is found there too, unless it is an open comment. -/
theorem scanFrom_append_newline_of_error {line : Nat} {found : List Token} {cs : List Char}
    {e : ScanError} (h : scanFrom line found cs = .error e)
    (hfault : e.fault ≠ .unterminatedComment) (b : List Char) :
    scanFrom line found (cs ++ '\n' :: b) = .error e := by
  induction hk : cs.length using Nat.strong_induction_on generalizing line found cs with
  | _ k ih =>
    subst hk
    cases cs with
    | nil => simp at h
    | cons c cs =>
      cases hp : Piece.first c cs with
      | error f =>
        rw [scanFrom_cons_error hp] at h
        cases h
        have htext : c = '"' → closes cs = true := by
          rintro rfl
          cases hp
        have hcomment : c = '{' → '}' ∈ cs := by
          rintro rfl
          by_contra hmem
          rw [first_brace_of_not_mem hmem] at hp
          cases hp
          exact hfault rfl
        have hp' := Piece.first_append_newline cs b htext hcomment
        rw [hp] at hp'
        rw [List.cons_append, scanFrom_cons_error hp']
      | ok p =>
        rw [scanFrom_cons_ok hp] at h
        have hrest : p.rest ≠ [] := by
          intro hnil
          rw [hnil, scanFrom_nil] at h
          cases h
        have hp' := Piece.first_append_newline cs b
          (fun hc => Piece.closes_of_first_ok (hc ▸ hp) hrest)
          fun hc => Piece.mem_of_first_ok (hc ▸ hp)
        rw [hp] at hp'
        rw [List.cons_append, scanFrom_cons_ok hp']
        exact ih _ (Piece.first_rest_length_lt hp) h rfl

/-- **Scanning is compositional at line breaks.** Behind a separator a text has the tokens, or the
fault, that it has alone, on later lines, and the text in front of it keeps its own. -/
theorem scan_append_separator {g : String} (hg : Separator g.toList) (a b : String) :
    (∀ s, scan a = .ok s → ¬ EndsInText a.toList →
      scan (a ++ g ++ b) = scannedLater ((a ++ g).toList.count '\n') s.tokens (scan b)) ∧
    ∀ e, scan a = .error e → e.fault ≠ .unterminatedComment → scan (a ++ g ++ b) = .error e := by
  obtain ⟨g', hbreak, hlayout⟩ := hg
  have hlist : (a ++ g ++ b).toList = a.toList ++ '\n' :: (g' ++ b.toList) := by simp [hbreak]
  have hgap : Gap b.toList ('\n' :: g') := (Layout.char startsNothing_newline hlayout).gap _
  constructor
  · intro s hs hopen
    obtain ⟨ts, -, rfl⟩ := scanFrom_eq_ok_iff.1 hs
    have hlater := scanFrom_later 1 ((a ++ g).toList.count '\n') [] ts b.toList
    have hskip := hgap.scanFrom_append (1 + a.toList.count '\n') ts.reverse
    have hcount : (a ++ g).toList.count '\n' = a.toList.count '\n' + ('\n' :: g').count '\n' := by
      rw [String.toList_append, List.count_append, hbreak]
    unfold scan at hs ⊢
    rw [hlist, scanFrom_append_newline hs hopen]
    rw [Nat.add_assoc, ← hcount] at hskip
    simpa using hskip.trans (by simpa using hlater)
  · intro e he hfault
    unfold scan at he ⊢
    rw [hlist]
    exact scanFrom_append_newline_of_error he hfault _

theorem scan_and_comments_number :
    Separator "\n// 1\n\x7b or\n\x7d".toList ∧
      scan ("and" ++ "\n// 1\n\x7b or\n\x7d" ++ "1.") =
        .ok ⟨[⟨.word "and", 1⟩, ⟨.number "1.", 4⟩], 4⟩ ∧
      scan ("x :" ++ "\n// 1\n\x7b or\n\x7d" ++ "= 2") = .error ⟨.unknownOperator ":", 1⟩ := by
  have hlayout : Layout ('/' :: '/' :: " 1".toList ++ '\n' :: ('{' :: " or\n".toList ++ ['}'])) :=
    .lineComment (List.all_eq_true.1 (by decide)) (.comment (by decide) .nil)
  have hseparator : Separator "\n// 1\n\x7b or\n\x7d".toList := ⟨_, rfl, hlayout⟩
  have hand : scan "and" = .ok ⟨[⟨.word "and", 1⟩], 1⟩ := by decide +kernel
  have hopen : ¬ EndsInText "and".toList := (not_endsInText_iff hand).2 (by decide +kernel)
  have hcolon : scan "x :" = .error ⟨.unknownOperator ":", 1⟩ := by decide +kernel
  have hnumber : scan "1." = .ok ⟨[⟨.number "1.", 1⟩], 1⟩ := by decide +kernel
  refine ⟨hseparator, ?_, (scan_append_separator hseparator "x :" "= 2").2 _ hcolon (by simp)⟩
  rw [(scan_append_separator hseparator "and" "1.").1 _ hand hopen, hnumber]
  decide

end BlockScript
