import Flowchart.ImplicitElse
import Flowchart.Oracle

/-!
Structured programs, and how they read.

A row of statements is made of simple lines, conditionals, loops and switches, each of them with an
end line of its own. What a line is, a text or a block, is left open. The places of a part follow
each other in the order of its lines.
-/

namespace Flowchart.Structured

inductive Role
  | statements
  | arms
  | cases
deriving DecidableEq, Repr

/-- A part of a structured program. An else is the last arm, and a switch has a case at least. -/
inductive Part (α : Type) : Role → Type
  | done : Part α .statements
  | simple (line : α) (rest : Part α .statements) : Part α .statements
  | conditional (opener : α) (body : Part α .statements) (arms : Part α .arms) (closer : α)
      (rest : Part α .statements) : Part α .statements
  | loop (opener : α) (body : Part α .statements) (closer : α) (rest : Part α .statements) :
      Part α .statements
  | switch (opener : α) (cases : Part α .cases) (closer : α) (rest : Part α .statements) :
      Part α .statements
  | noArm : Part α .arms
  | elseIf (header : α) (body : Part α .statements) (arms : Part α .arms) : Part α .arms
  | otherwise (header : α) (body : Part α .statements) : Part α .arms
  | lastCase (header : α) (body : Part α .statements) : Part α .cases
  | case (header : α) (body : Part α .statements) (cases : Part α .cases) : Part α .cases

namespace Part

variable {α σ : Type} {role : Role}

def lines {role : Role} : Part α role → List α
  | .done => []
  | .simple line rest => line :: rest.lines
  | .conditional opener body arms closer rest =>
      opener :: (body.lines ++ arms.lines ++ closer :: rest.lines)
  | .loop opener body closer rest => opener :: (body.lines ++ closer :: rest.lines)
  | .switch opener cases closer rest => opener :: (cases.lines ++ closer :: rest.lines)
  | .noArm => []
  | .elseIf header body arms => header :: (body.lines ++ arms.lines)
  | .otherwise header body => header :: body.lines
  | .lastCase header body => header :: body.lines
  | .case header body cases => header :: (body.lines ++ cases.lines)

def size {role : Role} : Part α role → Nat
  | .done => 0
  | .simple _ rest => 1 + rest.size
  | .conditional _ body arms _ rest => 1 + body.size + arms.size + 1 + rest.size
  | .loop _ body _ rest => 1 + body.size + 1 + rest.size
  | .switch _ cases _ rest => 1 + cases.size + 1 + rest.size
  | .noArm => 0
  | .elseIf _ body arms => 1 + body.size + arms.size
  | .otherwise _ body => 1 + body.size
  | .lastCase _ body => 1 + body.size
  | .case _ body cases => 1 + body.size + cases.size

theorem length_lines (part : Part α role) : part.lines.length = part.size := by
  induction part with
  | done => rfl
  | simple line rest induction => simp [lines, size, induction, Nat.add_comm]
  | conditional opener body arms closer rest bodyInd armsInd restInd =>
      simp [lines, size, bodyInd, armsInd, restInd]
      omega
  | loop opener body closer rest bodyInd restInd =>
      simp [lines, size, bodyInd, restInd]
      omega
  | switch opener cases closer rest casesInd restInd =>
      simp [lines, size, casesInd, restInd]
      omega
  | noArm => rfl
  | elseIf header body arms bodyInd armsInd =>
      simp [lines, size, bodyInd, armsInd]
      omega
  | otherwise header body bodyInd =>
      simp [lines, size, bodyInd]
      omega
  | lastCase header body bodyInd =>
      simp [lines, size, bodyInd]
      omega
  | case header body cases bodyInd casesInd =>
      simp [lines, size, bodyInd, casesInd]
      omega

def heads {role : Role} (index : Nat) : Part α role → List Nat
  | .elseIf _ body arms => index :: arms.heads (index + 1 + body.size)
  | .otherwise _ _ => [index]
  | .lastCase _ _ => [index]
  | .case _ body cases => index :: cases.heads (index + 1 + body.size)
  | _ => []

def headers {role : Role} : Part α role → List α
  | .elseIf header _ arms => header :: arms.headers
  | .otherwise header _ => [header]
  | .lastCase header _ => [header]
  | .case header _ cases => header :: cases.headers
  | _ => []

/-! ## Parts in a row of lines -/

def StandsAt (all : List α) (index : Nat) (part : Part α role) : Prop :=
  ∃ more, all.drop index = part.lines ++ more

namespace StandsAt

variable {all : List α} {index : Nat}

theorem getElem?_of_drop {line : α} {later : List α} (suffix : all.drop index = line :: later) :
    all[index]? = some line ∧ all.drop (index + 1) = later := by
  constructor
  · rw [← List.head?_drop, suffix]
    rfl
  · rw [← List.drop_drop, suffix]
    rfl

theorem drop_add_size {part : Part α role} {more : List α}
    (suffix : all.drop index = part.lines ++ more) : all.drop (index + part.size) = more := by
  rw [← List.drop_drop, suffix, ← part.length_lines, List.drop_left]

section

variable {line opener header closer : α} {body rest : Part α .statements}
variable {arms : Part α .arms} {cases : Part α .cases}

theorem simple (stands : (Part.simple line rest).StandsAt all index) :
    all[index]? = some line ∧ rest.StandsAt all (index + 1) := by
  rcases stands with ⟨more, suffix⟩
  rcases getElem?_of_drop suffix with ⟨found, below⟩
  exact ⟨found, more, below⟩

theorem conditional (stands : (Part.conditional opener body arms closer rest).StandsAt all index) :
    all[index]? = some opener ∧ body.StandsAt all (index + 1) ∧
      arms.StandsAt all (index + 1 + body.size) ∧
      all[index + 1 + body.size + arms.size]? = some closer ∧
      rest.StandsAt all (index + 1 + body.size + arms.size + 1) := by
  rcases stands with ⟨more, suffix⟩
  simp only [lines, List.cons_append, List.append_assoc] at suffix
  rcases getElem?_of_drop suffix with ⟨found, below⟩
  have behindBody := drop_add_size below
  rcases getElem?_of_drop (drop_add_size behindBody) with ⟨closes, after⟩
  exact ⟨found, ⟨_, below⟩, ⟨_, behindBody⟩, closes, more, after⟩

theorem loop (stands : (Part.loop opener body closer rest).StandsAt all index) :
    all[index]? = some opener ∧ body.StandsAt all (index + 1) ∧
      all[index + 1 + body.size]? = some closer ∧
      rest.StandsAt all (index + 1 + body.size + 1) := by
  rcases stands with ⟨more, suffix⟩
  simp only [lines, List.cons_append, List.append_assoc] at suffix
  rcases getElem?_of_drop suffix with ⟨found, below⟩
  rcases getElem?_of_drop (drop_add_size below) with ⟨closes, after⟩
  exact ⟨found, ⟨_, below⟩, closes, more, after⟩

theorem switch (stands : (Part.switch opener cases closer rest).StandsAt all index) :
    all[index]? = some opener ∧ cases.StandsAt all (index + 1) ∧
      all[index + 1 + cases.size]? = some closer ∧
      rest.StandsAt all (index + 1 + cases.size + 1) := by
  rcases stands with ⟨more, suffix⟩
  simp only [lines, List.cons_append, List.append_assoc] at suffix
  rcases getElem?_of_drop suffix with ⟨found, below⟩
  rcases getElem?_of_drop (drop_add_size below) with ⟨closes, after⟩
  exact ⟨found, ⟨_, below⟩, closes, more, after⟩

theorem elseIf (stands : (Part.elseIf header body arms).StandsAt all index) :
    all[index]? = some header ∧ body.StandsAt all (index + 1) ∧
      arms.StandsAt all (index + 1 + body.size) := by
  rcases stands with ⟨more, suffix⟩
  simp only [lines, List.cons_append, List.append_assoc] at suffix
  rcases getElem?_of_drop suffix with ⟨found, below⟩
  exact ⟨found, ⟨_, below⟩, more, drop_add_size below⟩

theorem otherwise (stands : (Part.otherwise header body).StandsAt all index) :
    all[index]? = some header ∧ body.StandsAt all (index + 1) := by
  rcases stands with ⟨more, suffix⟩
  rcases getElem?_of_drop suffix with ⟨found, below⟩
  exact ⟨found, more, below⟩

theorem lastCase (stands : (Part.lastCase header body).StandsAt all index) :
    all[index]? = some header ∧ body.StandsAt all (index + 1) := by
  rcases stands with ⟨more, suffix⟩
  rcases getElem?_of_drop suffix with ⟨found, below⟩
  exact ⟨found, more, below⟩

theorem case (stands : (Part.case header body cases).StandsAt all index) :
    all[index]? = some header ∧ body.StandsAt all (index + 1) ∧
      cases.StandsAt all (index + 1 + body.size) := by
  rcases stands with ⟨more, suffix⟩
  simp only [lines, List.cons_append, List.append_assoc] at suffix
  rcases getElem?_of_drop suffix with ⟨found, below⟩
  exact ⟨found, ⟨_, below⟩, more, drop_add_size below⟩

end

end StandsAt

/-! ## The missing arms of conditionals -/

def orImplicit (level : Int) : Part Block .arms → Part Block .arms
  | .noArm => .otherwise (ImplicitElse.block level) .done
  | arms => arms

def completed {role : Role} : Part Block role → Part Block role
  | .done => .done
  | .simple line rest => .simple line rest.completed
  | .conditional opener body arms closer rest =>
      .conditional opener body.completed (arms.completed.orImplicit opener.level) closer
        rest.completed
  | .loop opener body closer rest => .loop opener body.completed closer rest.completed
  | .switch opener cases closer rest => .switch opener cases.completed closer rest.completed
  | .noArm => .noArm
  | .elseIf header body arms => .elseIf header body.completed arms.completed
  | .otherwise header body => .otherwise header body.completed
  | .lastCase header body => .lastCase header body.completed
  | .case header body cases => .case header body.completed cases.completed

/-! ## Reading -/

def replay (index : Int) (body : σ → Except NumeralError (List Int × σ)) :
    Nat → σ → Except NumeralError (List Int × σ)
  | 0, memory => .ok ([], memory)
  | rounds + 1, memory => do
      let (inside, memory) ← body memory
      let (path, memory) ← replay index body rounds memory
      return (index :: inside ++ path, memory)

def caseOf (count : Nat) (choice : Int) : Nat :=
  if 0 ≤ choice ∧ choice < count then choice.toNat else 0

/-- The places that are passed when a part is read from its first place on, with an oracle to decide
at the conditions and switches and a number of rounds for every loop. Of cases, the one of the given
number is read. -/
def read {role : Role} (oracle : Oracle σ) (rounds : Nat) :
    Part Block role → (index number : Nat) → σ → Except NumeralError (List Int × σ)
  | .done, _, _, memory => .ok ([], memory)
  | .simple _ rest, index, _, memory => do
      let (path, memory) ← rest.read oracle rounds (index + 1) 0 memory
      return ((index : Int) :: path, memory)
  | .conditional opener body arms _ rest, index, _, memory => do
      let stop := index + 1 + body.size + arms.size
      let (answer, memory) ← oracle.decide memory index opener
      let (inside, memory) ←
        (if answer = Oracle.yes then body.read oracle rounds (index + 1) 0 memory
        else arms.read oracle rounds (index + 1 + body.size) 0 memory)
      let (path, memory) ← rest.read oracle rounds (stop + 1) 0 memory
      return ((index : Int) :: inside ++ (stop : Int) :: path, memory)
  | .loop _ body _ rest, index, _, memory => do
      let stop := index + 1 + body.size
      let (turns, memory) ← replay index (body.read oracle rounds (index + 1) 0) rounds memory
      let (path, memory) ← rest.read oracle rounds (stop + 1) 0 memory
      return (turns ++ (index : Int) :: (stop : Int) :: path, memory)
  | .switch opener cases _ rest, index, _, memory => do
      let stop := index + 1 + cases.size
      let labels := cases.headers.map Block.content
      let (choice, memory) ← oracle.selectCase memory index opener labels
      let (inside, memory) ←
        cases.read oracle rounds (index + 1) (caseOf labels.length choice) memory
      let (path, memory) ← rest.read oracle rounds (stop + 1) 0 memory
      return ((index : Int) :: inside ++ (stop : Int) :: path, memory)
  | .noArm, _, _, memory => .ok ([], memory)
  | .elseIf header body arms, index, _, memory => do
      let (answer, memory) ← oracle.decide memory index header
      let (inside, memory) ←
        (if answer = Oracle.yes then body.read oracle rounds (index + 1) 0 memory
        else arms.read oracle rounds (index + 1 + body.size) 0 memory)
      return ((index : Int) :: inside, memory)
  | .otherwise _ body, index, _, memory => do
      let (inside, memory) ← body.read oracle rounds (index + 1) 0 memory
      return ((index : Int) :: inside, memory)
  | .lastCase _ body, index, _, memory => do
      let (inside, memory) ← body.read oracle rounds (index + 1) 0 memory
      return ((index : Int) :: inside, memory)
  | .case _ body cases, index, number, memory =>
      match number with
      | 0 => do
          let (inside, memory) ← body.read oracle rounds (index + 1) 0 memory
          return ((index : Int) :: inside, memory)
      | number + 1 => cases.read oracle rounds (index + 1 + body.size) number memory

end Part

end Flowchart.Structured
