import BlockScript.Tree.Stmt

/-!
# Trees that can be written down

Not every tree is the tree of some source text. In one that is, blocks below the root stand only
where `begin` may be written, and an `else` belongs to the nearest `if` that can take it.

* `Stmt.isOpen`: an `else` behind the statement would become part of it.
* `Stmt.isPlaced`: blocks and `else` branches stand only where they can be written.
* `Stmt.isCanonical`: the shape of a whole program.
-/

namespace BlockScript

/-- An `else` behind the statement would become part of it. -/
def Stmt.isOpen : Stmt → Bool
  | .ifThen _ _ => true
  | .ifElse _ _ t => t.isOpen
  | .whileDo _ s => s.isOpen
  | .assign .. | .write .. | .repeatUntil .. | .block _ | .jump _ => false

mutual

/-- Blocks inside the statement are directly branches or bodies of loops, and no branch in front of
an `else` is open. The statement itself may be a block only if `branch`. -/
def Stmt.isPlaced (branch : Bool) : Stmt → Bool
  | .assign .. | .write .. | .jump _ => true
  | .ifThen _ s | .whileDo _ s | .repeatUntil s _ => s.isPlaced true
  | .ifElse _ s t => !s.isOpen && s.isPlaced true && t.isPlaced true
  | .block ss => branch && Stmt.allPlaced ss

/-- The statements are such, and none of them is a block. -/
def Stmt.allPlaced : List Stmt → Bool
  | [] => true
  | s :: ss => s.isPlaced false && Stmt.allPlaced ss

end

/-- The tree is a block of statements that can be written down. -/
def Stmt.isCanonical : Stmt → Bool
  | .block ss => Stmt.allPlaced ss
  | _ => false

/-- The root of a canonical tree is a block. -/
theorem Stmt.exists_eq_block_of_isCanonical {p : Stmt} (h : p.isCanonical = true) :
    ∃ ss, p = .block ss ∧ Stmt.allPlaced ss = true := by
  cases p with
  | block ss => exact ⟨ss, rfl, h⟩
  | _ => cases h

end BlockScript
