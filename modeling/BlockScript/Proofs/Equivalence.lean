import BlockScript.Proofs.Incremental

/-!
# Statements that do the same

* `Stmt.Diverges`: a statement runs forever; `Stmt.diverges_or_ends`: if it does not, it comes to an
  end.
* `Stmt.Equivalent`: from every state, two statements run forever, or come to an end alike.
* `Stmt.equivalent_of_follows`: two statements that follow each other, for some number of rounds,
  are equivalent.
-/

namespace BlockScript

/-- No number of rounds is enough for the statement. -/
def Stmt.Diverges (s : Stmt) (σ : State) : Prop :=
  ∀ n, (s.exec n σ).1 = .exhausted

/-- From every state, both statements run forever, or both come to an end: in the same way, with the
same variables and the same output. The traces may differ. -/
def Stmt.Equivalent (s t : Stmt) : Prop :=
  ∀ σ : State, (s.Diverges σ ∧ t.Diverges σ) ∨
    ∃ r τ υ, s.Ends σ r τ ∧ t.Ends σ r υ ∧ τ.Alike υ

theorem Stmt.diverges_or_ends (s : Stmt) (σ : State) : s.Diverges σ ∨ ∃ r τ, s.Ends σ r τ := by
  by_cases h : s.Diverges σ
  · exact .inl h
  · obtain ⟨n, hn⟩ := not_forall.1 h
    exact .inr ⟨_, _, hn, n, rfl⟩

theorem Stmt.Ends.not_diverges {s : Stmt} {σ τ : State} {r : Ending Fault Flow}
    (h : s.Ends σ r τ) : ¬ s.Diverges σ := by
  obtain ⟨hr, n, hn⟩ := h
  intro hs
  apply hr
  rw [← hs n, hn]

/-- Where one of two equivalent statements comes to an end, the other one comes to the same. -/
theorem Stmt.Equivalent.exists_ends {s t : Stmt} (h : s.Equivalent t) {σ τ : State}
    {r : Ending Fault Flow} (hs : s.Ends σ r τ) : ∃ υ, t.Ends σ r υ ∧ τ.Alike υ := by
  obtain ⟨hdiv, -⟩ | ⟨r', τ', υ, hs', ht, halike⟩ := h σ
  · exact absurd hdiv hs.not_diverges
  · obtain ⟨rfl, rfl⟩ := hs.unique hs'
    exact ⟨υ, ht, halike⟩

/-! ### Statements that follow each other -/

open State

theorem State.alike_note (σ : State) (e : Event) : (σ.note e).Alike σ :=
  ⟨rfl, rfl⟩

/-- What is noted at the end makes no difference. -/
theorem follows_of_alike (flow : Flow) {f g : State → State} (hf : ∀ σ, (f σ).Alike σ)
    (hg : ∀ σ, (g σ).Alike σ) :
    Follows Alike (fun σ => (.ok flow, g σ)) fun σ => (.ok flow, f σ) :=
  fun σ τ h _ => ⟨rfl, (hf σ).trans (h.trans (hg τ).symm)⟩

/-- Two statements are equivalent if, whatever rounds the one is allowed, the other one follows it
for some number of rounds. -/
theorem Stmt.equivalent_of_follows {s t : Stmt} (h : ∀ n, ∃ m, Follows Alike (t.exec m) (s.exec n))
    (h' : ∀ n, ∃ m, Follows Alike (s.exec m) (t.exec n)) : s.Equivalent t := by
  have hends {s t : Stmt} (h : ∀ n, ∃ m, Follows Alike (t.exec m) (s.exec n)) {σ τ : State}
      {r : Ending Fault Flow} (hs : s.Ends σ r τ) : ∃ υ, t.Ends σ r υ ∧ τ.Alike υ := by
    obtain ⟨hr, n, hn⟩ := hs
    obtain ⟨m, hm⟩ := h n
    obtain ⟨r', τ', υ, hs', ht, halike⟩ := (hm σ σ (.refl σ) (by rwa [hn])).exists_eq
    obtain ⟨rfl, rfl⟩ : r = r' ∧ τ = τ' := Prod.mk.inj (hn.symm.trans hs')
    exact ⟨υ, ⟨hr, m, ht⟩, halike⟩
  intro σ
  obtain hs | ⟨r, τ, hs⟩ := s.diverges_or_ends σ
  · refine .inl ⟨hs, (t.diverges_or_ends σ).resolve_right ?_⟩
    rintro ⟨r, υ, ht⟩
    obtain ⟨τ, hs', -⟩ := hends h' ht
    exact hs'.not_diverges hs
  · obtain ⟨υ, ht, halike⟩ := hends h hs
    exact .inr ⟨r, τ, υ, hs, ht, halike⟩

/-- Two statements are equivalent if they do the same for every number of rounds. -/
theorem Stmt.equivalent_of_exec_eq {s t : Stmt} (h : ∀ n, s.exec n = t.exec n) :
    s.Equivalent t := by
  refine equivalent_of_follows (fun n => ⟨n, ?_⟩) fun n => ⟨n, ?_⟩
  · rw [h n]
    exact alike_lockstep.follows_exec n t
  · rw [h n]
    exact alike_lockstep.follows_exec n t

end BlockScript
