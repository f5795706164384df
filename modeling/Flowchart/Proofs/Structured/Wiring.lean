import Flowchart.Proofs.Graph.LoopEdges
import Flowchart.Proofs.Structured.Owners
import Flowchart.Proofs.Structured.Wired

/-!
The flow graph of a structured program is wired as the program reads.

The constructs around a row stay open through the row, and those that its own blocks open are
closed where the next statement begins. So a target is forwarded only from the end of an arm or a
case, and to the end marker of the construct; and no edge is turned back, since every loop is left
behind the last block of its body.
-/

namespace Flowchart.Structured

open Flowchart.Graph
open Flowchart.Walk

/-! ## Open constructs -/

def OpenAt (plan : Plan) (index : Nat) (scopes : Scopes) : Prop :=
  plan.scopesAt index = scopes.filter (Scope.reaches index)

def Through (scopes : Scopes) (stop : Nat) : Prop :=
  ∀ scope ∈ scopes, scope.boundary.all (stop ≤ ·) = true

section

variable {plan : Plan} {index stop : Nat} {scopes : Scopes} {scope : Scope}

theorem Through.le (through : Through scopes stop) {earlier : Nat} (before : earlier ≤ stop) :
    Through scopes earlier := by
  intro scope member
  have reaches := through scope member
  cases bound : scope.boundary with
  | none => rfl
  | some boundary =>
      rw [bound] at reaches
      simp only [Option.all_some, decide_eq_true_eq] at reaches ⊢
      omega

theorem Through.cons (through : Through scopes stop)
    (reaches : scope.boundary.all (stop ≤ ·) = true) : Through (scope :: scopes) stop := by
  intro other member
  rcases List.mem_cons.mp member with rfl | inner
  · exact reaches
  · exact through other inner

theorem Through.filter (through : Through scopes (index + 1)) :
    scopes.filter (Scope.reaches index) = scopes :=
  List.filter_eq_self.mpr through

theorem Through.close (through : Through scopes (index + 1)) :
    ∀ extent ∈ scopes.loops, extent.close.all (index < ·) = true := by
  intro extent member
  rcases List.mem_filterMap.mp member with ⟨scope, inner, equal⟩
  cases scope with
  | branch => cases equal
  | loop known =>
      cases equal
      exact through _ inner

theorem Through.resolve (through : Through scopes (index + 1)) :
    scopes.resolve (some index) = some index := by
  induction scopes with
  | nil => rfl
  | cons scope scopes induction =>
      have later := induction fun other member => through other (List.mem_cons_of_mem _ member)
      cases scope with
      | loop extent => exact later
      | branch extent boundary =>
          have reaches : boundary.all (index + 1 ≤ ·) = true := through _ List.mem_cons_self
          have inside : boundary ≠ some index := by
            rintro rfl
            simp only [Option.all_some, decide_eq_true_eq] at reaches
            omega
          rw [Scopes.resolve_cons_branch, if_neg fun all => inside all.2.1, later]

theorem OpenAt.scopesAt_eq (openAt : OpenAt plan index scopes)
    (through : Through scopes (index + 1)) : plan.scopesAt index = scopes := by
  rw [OpenAt] at openAt
  rw [openAt, through.filter]

theorem OpenAt.succ (openAt : OpenAt plan index scopes) (through : Through scopes (index + 1)) :
    OpenAt plan (index + 1) ((plan.opensAt index).toList ++ scopes) := by
  rw [OpenAt, Plan.scopesAt, openAt.scopesAt_eq through]

theorem OpenAt.closed (openAt : OpenAt plan index (scope :: scopes))
    (boundary : scope.boundary = some index) : OpenAt plan index scopes := by
  have unreached : ¬scope.reaches index = true := by
    simp [Scope.reaches, boundary]
  rw [OpenAt, List.filter_cons_of_neg unreached] at openAt
  exact openAt

end

/-! ## Where a row goes on -/

def Exits (blocks : List Block) (scopes : Scopes) (stop : Nat) : Goal → Prop
  | .block place =>
      scopes.resolve (some stop) = some place ∧ stop ≤ place ∧ place < blocks.length ∧
        ∀ extent ∈ scopes.loops, extent.close.all (place < ·) = true
  | .loop header close =>
      close = stop ∧ stop < blocks.length ∧ scopes.resolve (some stop) = some stop ∧
        IsLoop blocks header ∧ bodyEnd blocks header + 1 = stop ∧
        ∃ outer, scopes.loops = loopExtent blocks header :: outer ∧
          ∀ extent ∈ outer, extent.close.all (stop < ·) = true

section

variable {blocks : List Block} {scopes : Scopes} {stop : Nat}

theorem exits_of_through (through : Through scopes (stop + 1)) (small : stop < blocks.length) :
    Exits blocks scopes stop (.block stop) :=
  ⟨through.resolve, Nat.le_refl stop, small, through.close⟩

theorem exits_of_branch {extent : BranchExtent} {next : Nat} (through : Through scopes (stop + 1))
    (small : stop < blocks.length) (before : next ≤ stop) (ends : extent.stop = some stop) :
    Exits blocks (.branch extent (some next) :: scopes) next (.block stop) := by
  refine ⟨?_, before, small, through.close⟩
  rw [Scopes.resolve_cons_branch, ends]
  by_cases last : next = stop
  · rw [last, if_neg (by simp), through.resolve]
  · rw [if_pos ⟨rfl, rfl, by simpa using last⟩, through.resolve]

theorem exits_of_loop {header : Nat} (through : Through scopes (stop + 1))
    (small : stop < blocks.length) (isLoop : IsLoop blocks header)
    (last : bodyEnd blocks header + 1 = stop) :
    Exits blocks (.loop (loopExtent blocks header) :: scopes) stop (.loop header stop) :=
  ⟨rfl, small, through.resolve, isLoop, last, scopes.loops, rfl, through.close⟩

theorem Exits.lt_length {goal : Goal} (exits : Exits blocks scopes stop goal) :
    stop < blocks.length := by
  cases goal with
  | block place => exact Nat.lt_of_le_of_lt exits.2.1 exits.2.2.1
  | loop header close => exact exits.2.1

theorem exits_entry {goal : Goal} {rest : Part Block .statements} {next : Nat}
    (through : Through scopes (next + rest.size))
    (exits : Exits blocks scopes (next + rest.size) goal) :
    Exits blocks scopes next (rest.entry next 0 goal) := by
  have small := exits.lt_length
  by_cases empty : rest.size = 0
  · cases Part.eq_done_of_size empty
    exact exits
  · rw [Part.entry_of_size_pos empty]
    exact exits_of_through (through.le (by omega)) (by omega)

end

/-! ## Blocks with one edge -/

section

variable {blocks : List Block} {index : Nat}

theorem not_mem_loops_of_bodyEnd {loop : Nat} {extents : List LoopExtent}
    (isLoop : IsLoop blocks loop) (last : bodyEnd blocks loop = index)
    (bound : index + 1 < blocks.length)
    (inside : ∀ extent ∈ extents, extent.close.all (index + 1 < ·) = true) :
    loopExtent blocks loop ∉ extents := by
  intro member
  have later := inside _ member
  rw [loopExtent_close isLoop, last, if_pos bound] at later
  simp at later

theorem repetitionsAt_eq_nil (bound : index + 1 < blocks.length)
    (inside : ∀ extent ∈ ((Plan.ofBlocks blocks none).scopesAt index).loops,
      extent.close.all (index + 1 < ·) = true) :
    (Plan.ofBlocks blocks none).repetitionsAt index = [] := by
  refine List.eq_nil_iff_forall_not_mem.mpr fun edge member => ?_
  rcases (Plan.mem_repetitionsAt _).mp member with ⟨loop, before, isLoop, last, _⟩
  have isLoop : IsLoop blocks loop := isLoop
  have last : bodyEnd blocks loop = index := last
  have around : InBody blocks loop index := ⟨isLoop, before, Nat.le_of_eq last.symm⟩
  have isOpen : loopExtent blocks loop ∈ ((Plan.ofBlocks blocks none).scopesAt index).loops :=
    (Plan.mem_loops_scopesAt (Nat.lt_of_succ_lt bound)).mpr ⟨loop, around, rfl⟩
  exact not_mem_loops_of_bodyEnd isLoop last bound inside isOpen

theorem loopBack?_eq_none_of_close {source target : Nat} {extents : List LoopExtent}
    (inside : ∀ extent ∈ extents, extent.close.all (target < ·) = true) :
    Scopes.loopBack? source target extents = none := by
  induction extents with
  | nil => rfl
  | cons extent outer induction =>
      have later := induction fun other member => inside other (List.mem_cons_of_mem _ member)
      have own := inside extent List.mem_cons_self
      cases closed : extent.close with
      | none => simpa [Scopes.loopBack?, closed] using later
      | some close =>
          rw [closed] at own
          simp only [Option.all_some, decide_eq_true_eq] at own
          simp [Scopes.loopBack?, closed, own]

theorem all_lt_of_le {early late : Nat} (order : early ≤ late) {extents : List LoopExtent}
    (inside : ∀ extent ∈ extents, extent.close.all (late < ·) = true) :
    ∀ extent ∈ extents, extent.close.all (early < ·) = true := by
  intro extent member
  have own := inside extent member
  cases closed : extent.close with
  | none => rfl
  | some close =>
      rw [closed] at own
      simp only [Option.all_some, decide_eq_true_eq] at own ⊢
      omega

theorem links_of_edge {edge : Edge} {place : Nat} (bound : index < blocks.length)
    (own : (Plan.ofBlocks blocks none).edgesAt index = [edge]) (onward : edge.kind ≠ .loopBack)
    (target : edge.target = (place : Int))
    (alone : (Plan.ofBlocks blocks none).repetitionsAt index = []) :
    Links (ofBlocks blocks) index (.block place) := by
  have outgoing : (ofBlocks blocks).outgoing (index : Int) = [edge] := by
    rw [outgoing_ofBlocks blocks none bound, own, alone]
    rfl
  constructor
  · simp [firstForward?, Graph.forward, outgoing, onward, target]
  · simpa [outgoing] using onward

/-- A block whose edge leads to the next block, forwarded through some open constructs, leads where
a row inside these goes on. -/
theorem links_of_exits {scopes : Scopes} {goal : Goal}
    (own : (Plan.ofBlocks blocks none).edgesAt index =
      edgeWithin blocks.length scopes index (scopes.resolve (some (index + 1))) .default none)
    (loops : scopes.loops = ((Plan.ofBlocks blocks none).scopesAt index).loops)
    (exits : Exits blocks scopes (index + 1) goal) : Links (ofBlocks blocks) index goal := by
  cases goal with
  | block place =>
      rcases exits with ⟨resolved, after, small, closes⟩
      rw [resolved, edgeWithin_of_free small (loopBack?_eq_none_of_close closes)] at own
      refine links_of_edge (by omega) own (by simp) rfl
        (repetitionsAt_eq_nil (by omega) (loops ▸ all_lt_of_le after closes))
  | loop header close =>
      rcases exits with ⟨rfl, small, resolved, isLoop, last, outer, innermost, closes⟩
      have last : bodyEnd blocks header = index := by omega
      have isOpen : loopExtent blocks header ∈
          ((Plan.ofBlocks blocks none).scopesAt index).loops := by
        rw [← loops, innermost]
        exact List.mem_cons_self
      have before : header < index := by
        have start := Plan.start_lt_of_mem_loops isOpen
        rwa [loopExtent_start] at start
      have free : Scopes.loopBack? index (index + 1) scopes.loops = none := by
        rw [innermost, Scopes.loopBack?, loopExtent_close isLoop, loopExtent_last isLoop, last,
          if_pos small]
        simp [Nat.ne_of_gt before]
      rw [resolved, edgeWithin_of_free small free] at own
      have bound : index < blocks.length := by omega
      have outgoing := outgoing_ofBlocks blocks none bound
      refine ⟨?_, ?_, ?_⟩
      · rw [firstForward?, forward_ofBlocks bound, own]
        rfl
      · have back := (Plan.mem_repetitionsAt (Plan.ofBlocks blocks none)).mpr
          ⟨header, before, isLoop, last, rfl⟩
        have member := List.mem_append_right ((Plan.ofBlocks blocks none).edgesAt index) back
        rw [← outgoing] at member
        exact ⟨_, member, rfl⟩
      · intro edge member isBack
        rw [outgoing, own] at member
        rcases List.mem_append.mp member with inOwn | repetition
        · rw [List.mem_singleton.mp inOwn] at isBack
          cases isBack
        · rcases (Plan.mem_repetitionsAt _).mp repetition with
            ⟨loop, earlier, isLoop', last', rfl⟩
          have around : InBody blocks loop index := ⟨isLoop', earlier, Nat.le_of_eq last'.symm⟩
          have among : loopExtent blocks loop ∈ loopExtent blocks header :: outer := by
            rw [← innermost, loops]
            exact (Plan.mem_loops_scopesAt bound).mpr ⟨loop, around, rfl⟩
          rcases List.mem_cons.mp among with same | inOuter
          · have starts := congrArg LoopExtent.start same
            rw [loopExtent_start, loopExtent_start] at starts
            rw [starts]
          · exact absurd inOuter (not_mem_loops_of_bodyEnd isLoop' last' small closes)

theorem forks_of_edges {scopes : Scopes} {yes no stop : Nat} (small : stop < blocks.length)
    (after : index < stop) (onward : yes ≤ stop ∧ no ≤ stop)
    (own : (Plan.ofBlocks blocks none).edgesAt index =
      edgeWithin blocks.length scopes index (some yes) .yes none ++
        edgeWithin blocks.length scopes index (some no) .no none)
    (loops : scopes.loops = ((Plan.ofBlocks blocks none).scopesAt index).loops)
    (closes : ∀ extent ∈ scopes.loops, extent.close.all (stop < ·) = true) :
    Forks (ofBlocks blocks) index yes no := by
  have alone : (Plan.ofBlocks blocks none).repetitionsAt index = [] :=
    repetitionsAt_eq_nil (by omega) (loops ▸ all_lt_of_le after closes)
  rw [edgeWithin_of_free (by omega) (loopBack?_eq_none_of_close (all_lt_of_le onward.1 closes)),
    edgeWithin_of_free (by omega) (loopBack?_eq_none_of_close (all_lt_of_le onward.2 closes))]
    at own
  have outgoing : (ofBlocks blocks).outgoing (index : Int) =
      [{ source := index, target := yes, kind := .yes },
        { source := index, target := no, kind := .no }] := by
    rw [outgoing_ofBlocks blocks none (by omega), own, alone]
    rfl
  constructor
  · rw [Graph.forward, outgoing]
    rfl
  · simp [outgoing]

theorem selects_of_edges {scopes : Scopes} {places : List Nat} {labels : List String} {stop : Nat}
    (small : stop < blocks.length) (after : index < stop)
    (onward : ∀ place ∈ places, place < stop)
    (own : (Plan.ofBlocks blocks none).edgesAt index =
      places.flatMap fun place => edgeWithin blocks.length scopes index (some place) .case
        (blocks[place]?.map Block.content))
    (labelled : places.map (fun place => (blocks[place]?.map Block.content).getD "") = labels)
    (loops : scopes.loops = ((Plan.ofBlocks blocks none).scopesAt index).loops)
    (closes : ∀ extent ∈ scopes.loops, extent.close.all (stop < ·) = true) :
    Selects (ofBlocks blocks) index places labels := by
  have alone : (Plan.ofBlocks blocks none).repetitionsAt index = [] :=
    repetitionsAt_eq_nil (by omega) (loops ▸ all_lt_of_le after closes)
  have own : (Plan.ofBlocks blocks none).edgesAt index = places.map fun place : Nat =>
      ({ source := index, target := place, kind := .case,
         label := blocks[place]?.map Block.content } : Edge) := by
    rw [own, List.map_eq_flatMap, List.flatMap_def, List.flatMap_def]
    refine congrArg List.flatten (List.map_congr_left fun place member => ?_)
    have before := onward place member
    exact edgeWithin_of_free (by omega)
      (loopBack?_eq_none_of_close (all_lt_of_le (Nat.le_of_lt before) closes))
  have outgoing : (ofBlocks blocks).outgoing (index : Int) = places.map fun place : Nat =>
      ({ source := index, target := place, kind := .case,
         label := blocks[place]?.map Block.content } : Edge) := by
    rw [outgoing_ofBlocks blocks none (by omega), own, alone, List.append_nil]
  have all : ((ofBlocks blocks).outgoing (index : Int)).filter (fun edge => edge.kind = .case) =
      (ofBlocks blocks).outgoing (index : Int) := by
    rw [outgoing]
    refine List.filter_eq_self.mpr fun edge member => ?_
    rcases List.mem_map.mp member with ⟨place, _, rfl⟩
    rfl
  constructor
  · rw [all, outgoing, List.map_map]
    rfl
  · rw [all, outgoing, List.map_map]
    exact labelled
  · intro edge member
    rw [outgoing] at member
    rcases List.mem_map.mp member with ⟨place, _, rfl⟩
    simp

end

/-! ## Blocks by kind -/

section

variable {blocks : List Block} {scopes : Scopes} {index : Nat} {block : Block}

theorem edgesAt_eq (plan : Plan) (found : plan.blocks[index]? = some block)
    (openAt : OpenAt plan index scopes) (through : Through scopes (index + 1)) :
    plan.edgesAt index = (plan.contribution scopes index block).edges := by
  rw [Plan.edgesAt, found, openAt.scopesAt_eq through]

theorem openAt_succ (plan : Plan) (found : plan.blocks[index]? = some block)
    (openAt : OpenAt plan index scopes) (through : Through scopes (index + 1)) :
    OpenAt plan (index + 1) ((plan.contribution scopes index block).opens.toList ++ scopes) := by
  have opens : plan.opensAt index = (plan.contribution scopes index block).opens := by
    rw [Plan.opensAt, found, Plan.contribution_opens]
    rfl
  rw [← opens]
  exact openAt.succ through

theorem contribution_plain (plan : Plan) (plain : block.kind ∈ Block.Kind.plain) :
    plan.contribution scopes index block =
      { edges := edgeWithin plan.size scopes index (scopes.resolve (some (index + 1))) .default
          none } := by
  have others : ∀ kind ∉ Block.Kind.plain, block.kind ≠ kind := fun kind =>
    Block.ne_of_plain plain
  simp only [Plan.contribution, others .stop (by decide), others .case (by decide),
    others .switch (by decide), others .loop (by decide), others .return (by decide),
    Block.not_opensConditional_of_ne (others .condition (by decide)),
    Block.not_isBranch_of_plain plain]
  rfl

theorem passes_of_plain {goal : Goal} (found : blocks[index]? = some block)
    (plain : block.kind ∈ Block.Kind.plain)
    (openAt : OpenAt (Plan.ofBlocks blocks none) index scopes)
    (through : Through scopes (index + 1)) (exits : Exits blocks scopes (index + 1) goal) :
    Passes (ofBlocks blocks) index block goal ∧
      OpenAt (Plan.ofBlocks blocks none) (index + 1) scopes := by
  have others : ∀ kind ∉ Block.Kind.plain, block.kind ≠ kind := fun kind =>
    Block.ne_of_plain plain
  have own := edgesAt_eq (Plan.ofBlocks blocks none) found openAt through
  have opened := openAt_succ (Plan.ofBlocks blocks none) found openAt through
  rw [contribution_plain _ plain] at own opened
  refine ⟨?_, opened⟩
  exact {
    found := found
    goesOn := ⟨others .stop (by decide), others .return (by decide)⟩
    other := ⟨others .loop (by decide), others .call (by decide), others .switch (by decide)⟩
    asksNothing := by
      simp [Block.not_opensConditional_of_ne (others .condition (by decide)),
        others .elseIf (by decide)]
    links := links_of_exits own (by rw [openAt.scopesAt_eq through]) exits }

end

/-! ## Conditionals and switches -/

section

variable {blocks : List Block} {scopes : Scopes} {index next stop : Nat} {block : Block}
variable {owner : BranchExtent} {body : Part Block .statements}

theorem entry_block {α : Type} (part : Part α .statements) (index number place : Nat) :
    ∃ first, part.entry index number (.block place) = .block first ∧
      first = if part.size = 0 then place else index := by
  by_cases empty : part.size = 0
  · cases Part.eq_done_of_size empty
    exact ⟨place, rfl, rfl⟩
  · rw [if_neg empty, Part.entry_of_size_pos empty]
    exact ⟨index, rfl, rfl⟩

theorem entry_arms_place {α : Type} (arms : Part α .arms) (index : Nat) :
    (arms.entry index 0 (.block (index + arms.size))).place = index := by
  cases arms <;> rfl

theorem contribution_conditional (plan : Plan) (opens : block.opensConditional = true) :
    plan.contribution scopes index block = plan.conditionBlock scopes index := by
  have kind := Block.kind_of_opensConditional opens
  simp [Plan.contribution, kind, opens]

theorem asks_of_conditional {arms : Part Block .arms}
    (found : blocks[index]? = some block) (opens : block.opensConditional = true)
    (extent : conditionalExtent blocks index = owner)
    (boundary : owner.nextBoundary index = some (index + 1 + body.size))
    (ends : owner.stop = some stop) (stops : stop = index + 1 + body.size + arms.size)
    (small : stop < blocks.length)
    (openAt : OpenAt (Plan.ofBlocks blocks none) index scopes)
    (through : Through scopes (stop + 1)) :
    Asks (ofBlocks blocks) index block (body.entry (index + 1) 0 (.block stop)).place
        (arms.entry (index + 1 + body.size) 0 (.block stop)).place ∧
      OpenAt (Plan.ofBlocks blocks none) (index + 1)
        (.branch owner (some (index + 1 + body.size)) :: scopes) := by
  have here : Through scopes (index + 1) := through.le (by omega)
  have known : conditionalExtent (Plan.ofBlocks blocks none).blocks index = owner := extent
  have own := edgesAt_eq (Plan.ofBlocks blocks none) found openAt here
  have opened := openAt_succ (Plan.ofBlocks blocks none) found openAt here
  rw [contribution_conditional _ opens] at own opened
  simp only [Plan.conditionBlock, known, boundary, ends, through.resolve] at own opened
  refine ⟨⟨found, .inl opens, ?_⟩, opened⟩
  rcases entry_block body (index + 1) 0 stop with ⟨first, entry, isFirst⟩
  have yes : (if some (index + 1) = some (index + 1 + body.size) then some stop
      else some (index + 1)) = some first := by
    rw [isFirst]
    by_cases empty : body.size = 0
    · simp [empty]
    · simp [empty]
  have no : (if some (index + 1 + body.size) = some stop then some stop
      else some (index + 1 + body.size)) = some (index + 1 + body.size) := by
    split
    · rename_i same
      exact same.symm
    · rfl
  rw [yes, no] at own
  rw [stops, entry_arms_place, ← stops, entry]
  refine forks_of_edges small (by omega) ⟨?_, by omega⟩ own (by rw [openAt.scopesAt_eq here])
    through.close
  rw [Goal.place, isFirst]
  split <;> omega

/-! ### Headers -/

theorem contribution_header (plan : Plan)
    (isHeader : block.isBranch = true ∧ block.opensConditional = false ∧ block.kind ≠ .stop ∨
      block.kind = .case) (isOwner : plan.owner? index = some owner) :
    plan.contribution scopes index block = plan.branchBlock scopes index block := by
  rcases isHeader with ⟨branch, noOpener, running⟩ | kind
  · simp [Plan.contribution, branch, noOpener, running]
  · simp [Plan.contribution, Block.opensConditional, kind, isOwner]

theorem branchBlock_of_header (plan : Plan) (header : Part.HeaderOf plan owner index next stop) :
    plan.branchBlock scopes index block =
      { edges :=
          if block.kind = .implicitElse then
            edgeWithin plan.size (.branch owner (some next) :: scopes) index
              (Scopes.resolve (.branch owner (some next) :: scopes) (some stop)) .no none
          else if block.kind = .elseIf then
            edgeWithin plan.size (.branch owner (some next) :: scopes) index
              (Scopes.resolve (.branch owner (some next) :: scopes) (some (index + 1))) .yes none ++
            edgeWithin plan.size (.branch owner (some next) :: scopes) index
              (if next = stop then
                Scopes.resolve (.branch owner (some next) :: scopes) (some stop)
              else some next) .no none
          else
            edgeWithin plan.size (.branch owner (some next) :: scopes) index
              (Scopes.resolve (.branch owner (some next) :: scopes) (some (index + 1))) .default
              none
        opens := some (.branch owner (some next)) } := by
  simp [Plan.branchBlock, header.isOwner, header.next, header.stop]

variable (header : Part.HeaderOf (Plan.ofBlocks blocks none) owner index
  (index + 1 + body.size) stop)
variable (within : index + 1 + body.size ≤ stop) (small : stop < blocks.length)
variable (through : Through scopes (stop + 1))

include header within small through in
theorem exits_of_header :
    Through (.branch owner (some (index + 1 + body.size)) :: scopes) (index + 1 + body.size) ∧
      Exits blocks (.branch owner (some (index + 1 + body.size)) :: scopes)
        (index + 1 + body.size) (.block stop) :=
  ⟨(through.le (by omega)).cons (by simp [Scope.boundary]),
    exits_of_branch through small within header.stop⟩

include header within small through in
theorem exits_entry_of_header :
    Exits blocks (.branch owner (some (index + 1 + body.size)) :: scopes) (index + 1)
      (body.entry (index + 1) 0 (.block stop)) :=
  have exits := exits_of_header header within small through
  exits_entry exits.1 exits.2

include header within small through in
theorem asks_of_elseIf {arms : Part Block .arms} (found : blocks[index]? = some block)
    (kind : block.kind = .elseIf) (stops : stop = index + 1 + body.size + arms.size)
    (openAt : OpenAt (Plan.ofBlocks blocks none) index scopes) :
    Asks (ofBlocks blocks) index block (body.entry (index + 1) 0 (.block stop)).place
        (arms.entry (index + 1 + body.size) 0 (.block stop)).place ∧
      OpenAt (Plan.ofBlocks blocks none) (index + 1)
        (.branch owner (some (index + 1 + body.size)) :: scopes) := by
  have here : Through scopes (index + 1) := through.le (by omega)
  have own := edgesAt_eq (Plan.ofBlocks blocks none) found openAt here
  have opened := openAt_succ (Plan.ofBlocks blocks none) found openAt here
  rw [contribution_header _ (.inl ⟨by simp [Block.isBranch, kind],
    Block.not_opensConditional_of_ne (by simp [kind]), by simp [kind]⟩) header.isOwner,
    branchBlock_of_header _ header] at own opened
  refine ⟨⟨found, .inr kind, ?_⟩, opened⟩
  have behind := exits_entry_of_header header within small through
  rcases entry_block body (index + 1) 0 stop with ⟨first, entry, isFirst⟩
  rw [entry] at behind
  have last : Scopes.resolve (.branch owner (some (index + 1 + body.size)) :: scopes)
      (some stop) = some stop := by
    rw [Scopes.resolve_cons_branch, header.stop, if_neg (by simp), through.resolve]
  have no : (if index + 1 + body.size = stop then some stop
      else some (index + 1 + body.size)) = some (index + 1 + body.size) := by
    split
    · rename_i same
      rw [same]
    · rfl
  simp only [kind, reduceCtorEq, if_false, if_true, behind.1, last, no] at own
  rw [stops, entry_arms_place, ← stops, entry]
  refine forks_of_edges small (by omega) ⟨?_, within⟩ own (by rw [openAt.scopesAt_eq here]; rfl)
    through.close
  rw [Goal.place, isFirst]
  split <;> omega

include header within small through in
theorem passes_of_otherwise (found : blocks[index]? = some block)
    (isElse : block.isElse = true ∨ block.kind = .implicitElse ∧ body = .done)
    (stops : stop = index + 1 + body.size)
    (openAt : OpenAt (Plan.ofBlocks blocks none) index scopes) :
    Passes (ofBlocks blocks) index block (body.entry (index + 1) 0 (.block stop)) ∧
      OpenAt (Plan.ofBlocks blocks none) (index + 1)
        (.branch owner (some (index + 1 + body.size)) :: scopes) := by
  have here : Through scopes (index + 1) := through.le (by omega)
  have kinds := kind_of_otherwise isElse
  have branch : block.isBranch = true := heads_of_otherwise isElse
  have noOpener : block.opensConditional = false := by
    rcases isElse with isElse | ⟨kind, _⟩
    · exact Block.not_opensConditional_of_isElse isElse
    · exact Block.not_opensConditional_of_ne (by simp [kind])
  have others : ∀ kind ∉ [Block.Kind.condition, .implicitElse], block.kind ≠ kind := by
    rintro kind different rfl
    rcases kinds with same | same <;> simp [same] at different
  have own := edgesAt_eq (Plan.ofBlocks blocks none) found openAt here
  have opened := openAt_succ (Plan.ofBlocks blocks none) found openAt here
  rw [contribution_header _ (.inl ⟨branch, noOpener, others .stop (by simp)⟩) header.isOwner,
    branchBlock_of_header _ header] at own opened
  refine ⟨?_, opened⟩
  exact {
    found := found
    goesOn := ⟨others .stop (by simp), others .return (by simp)⟩
    other := ⟨others .loop (by simp), others .call (by simp), others .switch (by simp)⟩
    asksNothing := by simp [noOpener, others .elseIf (by simp)]
    links := by
      rcases isElse with isElse | ⟨kind, rfl⟩
      · simp only [Block.kind_of_isElse isElse, reduceCtorEq, if_false] at own
        exact links_of_exits own (by rw [openAt.scopesAt_eq here]; rfl)
          (exits_entry_of_header header within small through)
      · have last : Scopes.resolve (.branch owner
            (some (index + 1 + (Part.done : Part Block .statements).size)) :: scopes)
            (some stop) = some stop := by
          rw [Scopes.resolve_cons_branch, header.stop, if_neg (by simp), through.resolve]
        have room : stop < (Plan.ofBlocks blocks none).size := small
        have free : Scopes.loopBack? index stop (Scopes.loops (.branch owner
            (some (index + 1 + (Part.done : Part Block .statements).size)) :: scopes)) = none :=
          loopBack?_eq_none_of_close through.close
        simp only [kind, if_true, last] at own
        rw [edgeWithin_of_free room free] at own
        refine links_of_edge (by omega) own (by simp) rfl (repetitionsAt_eq_nil (by omega) ?_)
        rw [openAt.scopesAt_eq here]
        exact all_lt_of_le (by omega) through.close }

include header within small through in
theorem passes_of_case (found : blocks[index]? = some block) (kind : block.kind = .case)
    (openAt : OpenAt (Plan.ofBlocks blocks none) index scopes) :
    Passes (ofBlocks blocks) index block (body.entry (index + 1) 0 (.block stop)) ∧
      OpenAt (Plan.ofBlocks blocks none) (index + 1)
        (.branch owner (some (index + 1 + body.size)) :: scopes) := by
  have here : Through scopes (index + 1) := through.le (by omega)
  have own := edgesAt_eq (Plan.ofBlocks blocks none) found openAt here
  have opened := openAt_succ (Plan.ofBlocks blocks none) found openAt here
  rw [contribution_header _ (.inr kind) header.isOwner, branchBlock_of_header _ header]
    at own opened
  simp only [kind, reduceCtorEq, if_false] at own
  refine ⟨?_, opened⟩
  exact {
    found := found
    goesOn := by simp [kind]
    other := by simp [kind]
    asksNothing := by simp [Block.opensConditional, kind]
    links := links_of_exits own (by rw [openAt.scopesAt_eq here]; rfl)
      (exits_entry_of_header header within small through) }

end

/-! ### Switches and loops -/

section

variable {blocks : List Block} {scopes : Scopes} {index : Nat} {block : Block}

theorem map_heads_content {role : Role} {part : Part Block role}
    (stands : part.StandsAt blocks index) :
    (part.heads index).map (fun place => (blocks[place]?.map Block.content).getD "") =
      part.headers.map Block.content := by
  induction part generalizing index with
  | done | simple | conditional | loop | switch | noArm => rfl
  | elseIf header body arms bodyInd armsInd =>
      rcases stands.elseIf with ⟨found, _, armsStands⟩
      simp [Part.heads, Part.headers, found, armsInd armsStands]
  | otherwise header body bodyInd => simp [Part.heads, Part.headers, stands.otherwise.1]
  | lastCase header body bodyInd => simp [Part.heads, Part.headers, stands.lastCase.1]
  | case header body cases bodyInd casesInd =>
      rcases stands.case with ⟨found, _, casesStands⟩
      simp [Part.heads, Part.headers, found, casesInd casesStands]

theorem selects_of_switch {cases : Part Block .cases} {stop : Nat}
    (found : blocks[index]? = some block) (kind : block.kind = .switch)
    (extent : switchExtent blocks index = ⟨index, cases.heads (index + 1), some stop, true⟩)
    (stops : stop = index + 1 + cases.size) (stands : cases.StandsAt blocks (index + 1))
    (small : stop < blocks.length)
    (openAt : OpenAt (Plan.ofBlocks blocks none) index scopes)
    (through : Through scopes (stop + 1)) :
    Selects (ofBlocks blocks) index (cases.heads (index + 1)) (cases.headers.map Block.content) ∧
      OpenAt (Plan.ofBlocks blocks none) (index + 1) scopes := by
  have here : Through scopes (index + 1) := through.le (by omega)
  have known : switchExtent (Plan.ofBlocks blocks none).blocks index =
      ⟨index, cases.heads (index + 1), some stop, true⟩ := extent
  have draws : (Plan.ofBlocks blocks none).contribution scopes index block =
      (Plan.ofBlocks blocks none).switchBlock scopes index := by
    simp [Plan.contribution, kind, Block.opensConditional, Block.isBranch, Block.isElse]
  have own := edgesAt_eq (Plan.ofBlocks blocks none) found openAt here
  have opened := openAt_succ (Plan.ofBlocks blocks none) found openAt here
  have boundary : BranchExtent.nextBoundary ⟨index, cases.heads (index + 1), some stop, true⟩
      index = some (index + 1) :=
    Part.nextBoundary_of_endsWith (by rw [stops]) (List.nil_append _).symm (by decide) (by simp)
      (by omega)
  have some : (cases.heads (index + 1)).isEmpty = false := by
    cases cases <;> rfl
  rw [draws, Plan.switchBlock] at own opened
  simp only [known, boundary, some, Bool.false_eq_true, if_false] at own opened
  refine ⟨?_, opened.closed rfl⟩
  refine selects_of_edges small (by omega) ?_ own (map_heads_content stands)
    (by rw [openAt.scopesAt_eq here]) through.close
  intro place member
  have inside := Part.bounds_of_mem_heads member
  omega

theorem links_of_loop (found : blocks[index]? = some block) (kind : block.kind = .loop)
    (small : index + 1 < blocks.length)
    (openAt : OpenAt (Plan.ofBlocks blocks none) index scopes)
    (through : Through scopes (index + 2)) :
    Links (ofBlocks blocks) index (.block (index + 1)) ∧
      OpenAt (Plan.ofBlocks blocks none) (index + 1)
        (.loop (loopExtent blocks index) :: scopes) := by
  have here : Through scopes (index + 1) := through.le (by omega)
  have draws : (Plan.ofBlocks blocks none).contribution scopes index block =
      (Plan.ofBlocks blocks none).loopBlock scopes index := by
    simp [Plan.contribution, kind, Block.opensConditional, Block.isBranch, Block.isElse]
  have own := edgesAt_eq (Plan.ofBlocks blocks none) found openAt here
  have opened := openAt_succ (Plan.ofBlocks blocks none) found openAt here
  rw [draws, Plan.loopBlock] at own opened
  rw [← through.resolve] at own
  exact ⟨links_of_exits own (by rw [openAt.scopesAt_eq here]) (exits_of_through through small),
    opened⟩

end

/-! ## The whole program -/

namespace Part

section

variable {blocks : List Block} {scopes : Scopes} {role : Role} {part : Part Block role}
variable {level : Int} {index : Nat} {owner : BranchExtent} {goal : Goal}

theorem lt_length_of_getElem? {line : Block} (found : blocks[index]? = some line) :
    index < blocks.length :=
  (List.getElem?_eq_some_iff.mp found).1

variable (blocks scopes part level index owner goal) in
structure Placed : Prop where
  shaped : part.Shaped level
  stands : part.StandsAt blocks index
  owned : part.Owned (Plan.ofBlocks blocks none) owner index
  openAt : OpenAt (Plan.ofBlocks blocks none) index scopes
  through : Through scopes (index + part.size)
  exits : Exits blocks scopes (index + part.size) goal
  ends : role ≠ .statements →
    goal = .block (index + part.size) ∧ Through scopes (index + part.size + 1)

variable (blocks scopes part index goal) in
def WiredWithin : Prop :=
  part.Wired (ofBlocks blocks) goal index ∧
    OpenAt (Plan.ofBlocks blocks none) (index + part.size) scopes

variable (blocks part) in
def GetsWired : Prop :=
  ∀ ⦃scopes level index owner goal⦄, part.Placed blocks scopes level index owner goal →
    part.WiredWithin blocks scopes index goal

/-! ### What the constructs are made of -/

theorem GetsWired.behind {line : Block} {rest : Part Block .statements}
    (restWired : rest.GetsWired blocks) (found : blocks[index]? = some line)
    (plain : line.kind ∈ Block.Kind.plain) (shaped : rest.Shaped level)
    (stands : rest.StandsAt blocks (index + 1))
    (owned : rest.Owned (Plan.ofBlocks blocks none) owner (index + 1))
    (openAt : OpenAt (Plan.ofBlocks blocks none) index scopes)
    (through : Through scopes (index + 1 + rest.size))
    (exits : Exits blocks scopes (index + 1 + rest.size) goal) :
    Passes (ofBlocks blocks) index line (rest.entry (index + 1) 0 goal) ∧
      rest.WiredWithin blocks scopes (index + 1) goal := by
  rcases passes_of_plain found plain openAt (through.le (by omega)) (exits_entry through exits) with
    ⟨passes, opened⟩
  exact ⟨passes, restWired ⟨shaped, stands, owned, opened, through, exits, absurd rfl⟩⟩

theorem GetsWired.inBranch {extent : BranchExtent} {body : Part Block .statements} {stop : Nat}
    (bodyWired : body.GetsWired blocks) (ends : extent.stop = some stop)
    (within : index + body.size ≤ stop) (small : stop < blocks.length)
    (throughStop : Through scopes (stop + 1)) (shaped : body.Shaped level)
    (stands : body.StandsAt blocks index)
    (owned : body.Owned (Plan.ofBlocks blocks none) owner index)
    (openAt : OpenAt (Plan.ofBlocks blocks none) index
      (.branch extent (some (index + body.size)) :: scopes)) :
    body.WiredWithin blocks scopes index (.block stop) := by
  have through : Through (.branch extent (some (index + body.size)) :: scopes)
      (index + body.size) :=
    (throughStop.le (by omega)).cons (by simp [Scope.boundary])
  rcases bodyWired ⟨shaped, stands, owned, openAt, through,
    exits_of_branch throughStop small within ends, absurd rfl⟩ with ⟨wired, behind⟩
  exact ⟨wired, behind.closed rfl⟩

theorem GetsWired.toEnd (partWired : part.GetsWired blocks)
    (small : index + part.size < blocks.length)
    (throughStop : Through scopes (index + part.size + 1)) (shaped : part.Shaped level)
    (stands : part.StandsAt blocks index)
    (owned : part.Owned (Plan.ofBlocks blocks none) owner index)
    (openAt : OpenAt (Plan.ofBlocks blocks none) index scopes) :
    part.WiredWithin blocks scopes index (.block (index + part.size)) :=
  partWired ⟨shaped, stands, owned, openAt, throughStop.le (by omega),
    exits_of_through throughStop small, fun _ => ⟨rfl, throughStop⟩⟩

/-! ### One construct at a time -/

section

variable {opener header closer line : Block} {body rest : Part Block .statements}
variable {arms : Part Block .arms} {cases : Part Block .cases}

theorem getsWired_simple (restWired : rest.GetsWired blocks) :
    (simple line rest).GetsWired blocks := by
  rintro scopes level index owner goal ⟨shaped, stands, owned, openAt, through, exits, -⟩
  rcases stands.simple with ⟨found, restStands⟩
  rcases shaped with ⟨plain, rfl, restShaped⟩
  have total : index + (simple line rest).size = index + 1 + rest.size := by
    rw [size, Nat.add_assoc]
  rw [total] at through exits
  rw [WiredWithin, total]
  rcases restWired.behind found plain.kind restShaped restStands owned openAt through exits with
    ⟨passes, restWired, after⟩
  exact ⟨⟨passes, restWired⟩, after⟩

theorem getsWired_conditional (bodyWired : body.GetsWired blocks)
    (armsWired : arms.GetsWired blocks) (restWired : rest.GetsWired blocks) :
    (conditional opener body arms closer rest).GetsWired blocks := by
  rintro scopes level index owner goal ⟨shaped, stands, owned, openAt, through, exits, -⟩
  have extent := conditionalExtent_of_lines shaped stands
  rcases stands.conditional with ⟨found, bodyStands, armsStands, closes, restStands⟩
  rcases shaped with ⟨opens, rfl, bodyShaped, armsShaped, isEnd, _, sameLevel, restShaped⟩
  rcases owned with ⟨bodyOwned, armsOwned, restOwned⟩
  have total : index + (conditional opener body arms closer rest).size =
      index + 1 + body.size + arms.size + 1 + rest.size := by
    simp only [size]
    omega
  rw [total] at through exits
  rw [WiredWithin, total]
  have small := lt_length_of_getElem? closes
  have throughStop : Through scopes (index + 1 + body.size + arms.size + 1) :=
    through.le (by omega)
  have boundary : BranchExtent.nextBoundary ⟨index, arms.heads (index + 1 + body.size),
      some (index + 1 + body.size + arms.size), true⟩ index = some (index + 1 + body.size) :=
    nextBoundary_of_endsWith rfl (List.nil_append _).symm (by decide) (by simp) (by omega)
  rcases asks_of_conditional found opens extent boundary rfl rfl small openAt throughStop with
    ⟨asks, bodyOpen⟩
  rcases bodyWired.inBranch rfl (by omega) small throughStop bodyShaped bodyStands bodyOwned
    bodyOpen with ⟨bodyWired, armsOpen⟩
  rcases armsWired.toEnd small throughStop armsShaped armsStands armsOwned armsOpen with
    ⟨armsWired, atStop⟩
  rcases restWired.behind closes (by simp [Block.Kind.plain, Block.kind_of_isIfEnd isEnd])
    restShaped restStands restOwned atStop through exits with ⟨passes, restWired, after⟩
  exact ⟨⟨asks, bodyWired, armsWired, passes, restWired⟩, after⟩

theorem getsWired_loop (bodyWired : body.GetsWired blocks) (restWired : rest.GetsWired blocks) :
    (loop opener body closer rest).GetsWired blocks := by
  rintro scopes level index owner goal ⟨shaped, stands, owned, openAt, through, exits, -⟩
  have last := bodyEnd_of_lines shaped stands
  rcases stands.loop with ⟨found, bodyStands, closes, restStands⟩
  rcases shaped with ⟨kind, rfl, bodyShaped, plain, sameLevel, restShaped⟩
  rcases owned with ⟨bodyOwned, restOwned⟩
  have total : index + (loop opener body closer rest).size =
      index + 1 + body.size + 1 + rest.size := by
    simp only [size]
    omega
  rw [total] at through exits
  rw [WiredWithin, total]
  have small := lt_length_of_getElem? closes
  have isLoop : IsLoop blocks index := isLoop_iff.mpr ⟨opener, found, kind⟩
  have throughClose : Through scopes (index + 1 + body.size + 1) := through.le (by omega)
  have close : (loopExtent blocks index).close = some (index + 1 + body.size) := by
    rw [loopExtent_close isLoop, last, if_pos (by omega)]
    congr 1
    omega
  rcases links_of_loop found kind (by omega) openAt (throughClose.le (by omega)) with
    ⟨links, bodyOpen⟩
  have inside : Through (.loop (loopExtent blocks index) :: scopes) (index + 1 + body.size) :=
    (throughClose.le (by omega)).cons (by simp [Scope.boundary, close])
  rcases bodyWired ⟨bodyShaped, bodyStands, bodyOwned, bodyOpen, inside,
    exits_of_loop throughClose small isLoop (by omega), absurd rfl⟩ with ⟨bodyWired, behindBody⟩
  rcases restWired.behind closes plain.kind restShaped restStands restOwned
    (behindBody.closed close) through exits with ⟨passes, restWired, after⟩
  exact ⟨⟨found, kind, last, links, bodyWired, passes, restWired⟩, after⟩

theorem getsWired_switch (casesWired : cases.GetsWired blocks)
    (restWired : rest.GetsWired blocks) :
    (switch opener cases closer rest).GetsWired blocks := by
  rintro scopes level index owner goal ⟨shaped, stands, owned, openAt, through, exits, -⟩
  have extent := switchExtent_of_lines shaped stands
  rcases stands.switch with ⟨found, casesStands, closes, restStands⟩
  rcases shaped with ⟨kind, rfl, casesShaped, _, isEnd, sameLevel, restShaped⟩
  rcases owned with ⟨casesOwned, restOwned⟩
  have total : index + (switch opener cases closer rest).size =
      index + 1 + cases.size + 1 + rest.size := by
    simp only [size]
    omega
  rw [total] at through exits
  rw [WiredWithin, total]
  have small := lt_length_of_getElem? closes
  have throughStop : Through scopes (index + 1 + cases.size + 1) := through.le (by omega)
  rcases selects_of_switch found kind extent rfl casesStands small openAt throughStop with
    ⟨selects, casesOpen⟩
  rcases casesWired.toEnd small throughStop casesShaped casesStands casesOwned casesOpen with
    ⟨casesWired, atStop⟩
  rcases restWired.behind closes (by simp [Block.Kind.plain, Block.kind_of_isSwitchEnd isEnd])
    restShaped restStands restOwned atStop through exits with ⟨passes, restWired, after⟩
  exact ⟨⟨found, kind, selects, casesWired, passes, restWired⟩, after⟩

theorem getsWired_elseIf (bodyWired : body.GetsWired blocks) (armsWired : arms.GetsWired blocks) :
    (elseIf header body arms).GetsWired blocks := by
  rintro scopes level index owner goal ⟨shaped, stands, owned, openAt, -, exits, ends⟩
  rcases stands.elseIf with ⟨found, bodyStands, armsStands⟩
  rcases shaped with ⟨kind, rfl, bodyShaped, armsShaped⟩
  rcases owned with ⟨isHeader, bodyOwned, armsOwned⟩
  have total : index + (elseIf header body arms).size = index + 1 + body.size + arms.size := by
    simp only [size]
    omega
  rw [total] at exits ends
  rw [WiredWithin, total]
  rcases ends (by decide) with ⟨rfl, throughStop⟩
  have small := exits.lt_length
  rcases asks_of_elseIf isHeader (by omega) small throughStop found kind rfl openAt with
    ⟨asks, bodyOpen⟩
  rcases bodyWired.inBranch isHeader.stop (by omega) small throughStop bodyShaped bodyStands
    bodyOwned bodyOpen with ⟨bodyWired, armsOpen⟩
  rcases armsWired.toEnd small throughStop armsShaped armsStands armsOwned armsOpen with
    ⟨armsWired, after⟩
  exact ⟨⟨asks, bodyWired, armsWired⟩, after⟩

theorem getsWired_otherwise (bodyWired : body.GetsWired blocks) :
    (otherwise header body).GetsWired blocks := by
  rintro scopes level index owner goal ⟨shaped, stands, owned, openAt, -, exits, ends⟩
  rcases stands.otherwise with ⟨found, bodyStands⟩
  rcases shaped with ⟨isElse, rfl, bodyShaped⟩
  rcases owned with ⟨isHeader, bodyOwned⟩
  have total : index + (otherwise header body).size = index + 1 + body.size := by
    rw [size, Nat.add_assoc]
  rw [total] at exits ends
  rw [WiredWithin, total]
  rcases ends (by decide) with ⟨rfl, throughStop⟩
  have small := exits.lt_length
  rcases passes_of_otherwise isHeader (by omega) small throughStop found isElse rfl openAt with
    ⟨passes, bodyOpen⟩
  rcases bodyWired.inBranch isHeader.stop (by omega) small throughStop bodyShaped bodyStands
    bodyOwned bodyOpen with ⟨bodyWired, after⟩
  exact ⟨⟨passes, bodyWired⟩, after⟩

theorem getsWired_lastCase (bodyWired : body.GetsWired blocks) :
    (lastCase header body).GetsWired blocks := by
  rintro scopes level index owner goal ⟨shaped, stands, owned, openAt, -, exits, ends⟩
  rcases stands.lastCase with ⟨found, bodyStands⟩
  rcases shaped with ⟨kind, rfl, bodyShaped⟩
  rcases owned with ⟨isHeader, bodyOwned⟩
  have total : index + (lastCase header body).size = index + 1 + body.size := by
    rw [size, Nat.add_assoc]
  rw [total] at exits ends
  rw [WiredWithin, total]
  rcases ends (by decide) with ⟨rfl, throughStop⟩
  have small := exits.lt_length
  rcases passes_of_case isHeader (by omega) small throughStop found kind openAt with
    ⟨passes, bodyOpen⟩
  rcases bodyWired.inBranch isHeader.stop (by omega) small throughStop bodyShaped bodyStands
    bodyOwned bodyOpen with ⟨bodyWired, after⟩
  exact ⟨⟨passes, bodyWired⟩, after⟩

theorem getsWired_case (bodyWired : body.GetsWired blocks) (casesWired : cases.GetsWired blocks) :
    (case header body cases).GetsWired blocks := by
  rintro scopes level index owner goal ⟨shaped, stands, owned, openAt, -, exits, ends⟩
  rcases stands.case with ⟨found, bodyStands, casesStands⟩
  rcases shaped with ⟨kind, rfl, bodyShaped, casesShaped⟩
  rcases owned with ⟨isHeader, bodyOwned, casesOwned⟩
  have total : index + (case header body cases).size = index + 1 + body.size + cases.size := by
    simp only [size]
    omega
  rw [total] at exits ends
  rw [WiredWithin, total]
  rcases ends (by decide) with ⟨rfl, throughStop⟩
  have small := exits.lt_length
  rcases passes_of_case isHeader (by omega) small throughStop found kind openAt with
    ⟨passes, bodyOpen⟩
  rcases bodyWired.inBranch isHeader.stop (by omega) small throughStop bodyShaped bodyStands
    bodyOwned bodyOpen with ⟨bodyWired, casesOpen⟩
  rcases casesWired.toEnd small throughStop casesShaped casesStands casesOwned casesOpen with
    ⟨casesWired, after⟩
  exact ⟨⟨passes, bodyWired, casesWired⟩, after⟩

end

theorem getsWired (part : Part Block role) : part.GetsWired blocks := by
  induction part with
  | done => exact fun _ _ _ _ _ placed => ⟨trivial, placed.openAt⟩
  | simple _ _ restWired => exact getsWired_simple restWired
  | conditional _ _ _ _ _ bodyWired armsWired restWired =>
      exact getsWired_conditional bodyWired armsWired restWired
  | loop _ _ _ _ bodyWired restWired => exact getsWired_loop bodyWired restWired
  | switch _ _ _ _ casesWired restWired => exact getsWired_switch casesWired restWired
  | noArm => exact fun _ _ _ _ _ placed => ⟨trivial, placed.openAt⟩
  | elseIf _ _ _ bodyWired armsWired => exact getsWired_elseIf bodyWired armsWired
  | otherwise _ _ bodyWired => exact getsWired_otherwise bodyWired
  | lastCase _ _ bodyWired => exact getsWired_lastCase bodyWired
  | case _ _ _ bodyWired casesWired => exact getsWired_case bodyWired casesWired

end

end Part

/-- Between a start and an end, the start leads into a structured program and the program to the
end. -/
theorem wired_between {start stop : Block} {body : Part Block .statements} {level : Int}
    (starts : start.kind = .start) (stops : stop.kind = .stop) (shaped : body.Shaped level) :
    Links (ofBlocks (start :: body.lines ++ [stop])) 0 (body.entry 1 0 (.block (1 + body.size))) ∧
      body.Wired (ofBlocks (start :: body.lines ++ [stop])) (.block (1 + body.size)) 1 := by
  let blocks := start :: body.lines ++ [stop]
  have length : blocks.length = 1 + body.size + 1 := by
    simp only [blocks, List.length_append, List.length_cons, List.length_nil, Part.length_lines]
    omega
  have stands : body.StandsAt blocks 1 := ⟨[stop], rfl⟩
  have closed : ∀ place, Through [] place := fun _ _ member => by cases member
  have ends : Exits blocks [] (1 + body.size) (.block (1 + body.size)) :=
    exits_of_through (closed _) (by omega)
  have found : (Plan.ofBlocks blocks none).blocks[0]? = some start := rfl
  have openAt : OpenAt (Plan.ofBlocks blocks none) 0 [] := rfl
  have draws : (Plan.ofBlocks blocks none).contribution [] 0 start =
      { edges := edgeWithin blocks.length [] 0 (Scopes.resolve [] (some 1)) .default none } := by
    simp only [Plan.contribution, Block.opensConditional, Block.isBranch, Block.isElse, starts]
    rfl
  have own := edgesAt_eq (Plan.ofBlocks blocks none) found openAt (closed 1)
  have opened := openAt_succ (Plan.ofBlocks blocks none) found openAt (closed 1)
  rw [draws] at own opened
  have owned : body.Owned (Plan.ofBlocks blocks none) ⟨0, [], none, false⟩ 1 :=
    owned_of_shaped starts stops shaped _
  have wired := body.getsWired ⟨shaped, stands, owned, opened, closed _, ends, absurd rfl⟩
  exact ⟨links_of_exits own rfl (exits_entry (closed _) ends), wired.1⟩

end Flowchart.Structured
