import BlockScript.Value

/-!
# Variables

* `Store`: the variables of a program and their values. There is one, without nesting.
* `Store.initial`: the variables that every program starts with.
* `Store.get?_set`: a variable has the value it was last given.
-/

namespace BlockScript

/-- The variables of a program, each with its value, in the order of their first assignment. -/
structure Store where
  bindings : List (String × Value)
  deriving DecidableEq, Repr

namespace Store

/-- The variables that every program starts with: the number π and Euler's number. -/
def initial : Store :=
  ⟨[("PI", .number (Float.ofBits 0x400921FB54442D18)),
    ("EXP", .number (Float.ofBits 0x4005BF0A8B145769))]⟩

/-- The value that bindings give to `x`. -/
def lookup (x : String) : List (String × Value) → Option Value
  | [] => none
  | b :: bs => if x = b.1 then some b.2 else lookup x bs

/-- The value of a variable. -/
def get? (σ : Store) (x : String) : Option Value :=
  lookup x σ.bindings

/-- The variable has a value. -/
def isDefined (σ : Store) (x : String) : Bool :=
  (σ.get? x).isSome

/-- The value of a variable, or zero where it has none. -/
def getOrZero (σ : Store) (x : String) : Value :=
  (σ.get? x).getD (.number Decimal.zero)

/-- The bindings with `x` bound to `v`, in place of an earlier binding or else at the end. -/
def bind (x : String) (v : Value) : List (String × Value) → List (String × Value)
  | [] => [(x, v)]
  | b :: bs => if x = b.1 then (x, v) :: bs else b :: bind x v bs

/-- Gives a variable a value. -/
def set (σ : Store) (x : String) (v : Value) : Store :=
  ⟨bind x v σ.bindings⟩

/-- The number of variables. -/
def size (σ : Store) : Nat :=
  σ.bindings.length

/-- There are no variables. -/
def isEmpty (σ : Store) : Bool :=
  σ.bindings.isEmpty

/-! ### What an assignment changes -/

theorem lookup_bind (x y : String) (v : Value) (bs : List (String × Value)) :
    lookup y (bind x v bs) = if y = x then some v else lookup y bs := by
  induction bs with
  | nil => rfl
  | cons b bs ih =>
    by_cases hx : x = b.1
    · by_cases hy : y = x <;> simp_all [bind, lookup]
    · by_cases hy : y = x <;> simp_all [bind, lookup]

/-- A variable has the value it was last given, and no other variable changes. -/
theorem get?_set (σ : Store) (x y : String) (v : Value) :
    (σ.set x v).get? y = if y = x then some v else σ.get? y :=
  lookup_bind x y v σ.bindings

@[simp] theorem get?_set_self (σ : Store) (x : String) (v : Value) :
    (σ.set x v).get? x = some v := by
  simp [get?_set]

theorem isDefined_set (σ : Store) (x y : String) (v : Value) :
    (σ.set x v).isDefined y = (y = x || σ.isDefined y) := by
  by_cases h : y = x <;> simp [isDefined, get?_set, h]

theorem length_bind (x : String) (v : Value) (bs : List (String × Value)) :
    (bind x v bs).length = if (lookup x bs).isSome then bs.length else bs.length + 1 := by
  induction bs with
  | nil => rfl
  | cons b bs ih =>
    by_cases hx : x = b.1
    · simp [bind, lookup, hx]
    · simp only [bind, lookup, hx, if_false, List.length_cons, ih]
      split <;> rfl

/-- An assignment adds a variable exactly if it is a new one. -/
theorem size_set (σ : Store) (x : String) (v : Value) :
    (σ.set x v).size = if σ.isDefined x then σ.size else σ.size + 1 :=
  length_bind x v σ.bindings

end Store
end BlockScript
