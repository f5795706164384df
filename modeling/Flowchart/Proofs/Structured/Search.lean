import Flowchart.Proofs.Block.Keyword
import Flowchart.Proofs.Extent.Depth

/-!
How the lines of a construct are found.

The searches of a conditional and of a switch are one search, for the lines of one form of
constructs. What belongs to another form it does not notice, and what belongs to its own form it
opens and closes again.
-/

namespace Flowchart

/-! ## Kinds of blocks -/

namespace Block

def Kind.plain : List Kind := [.process, .input, .output, .comment, .connector]

def Kind.structured : List Kind :=
  plain ++ [.condition, .elseIf, .switch, .case, .loop, .implicitElse]

structure IsPlain (block : Block) : Prop where
  kind : block.kind ∈ Kind.plain
  noIfEnd : block.isIfEnd = false
  noSwitchEnd : block.isSwitchEnd = false

section

variable {block : Block}

theorem ne_of_plain {kind : Kind} (plain : block.kind ∈ Kind.plain) (other : kind ∉ Kind.plain) :
    block.kind ≠ kind := by
  rintro rfl
  exact other plain

theorem ne_of_structured {kind : Kind} (structured : block.kind ∈ Kind.structured)
    (other : kind ∉ Kind.structured) : block.kind ≠ kind := by
  rintro rfl
  exact other structured

theorem not_isBranch_of_plain (plain : block.kind ∈ Kind.plain) : block.isBranch = false :=
  not_isBranch_of_ne (ne_of_plain plain (by decide)) (ne_of_plain plain (by decide))
    (ne_of_plain plain (by decide))

theorem kind_of_isSwitchEnd (ends : block.isSwitchEnd = true) : block.kind = .process := by
  simp only [isSwitchEnd, Bool.and_eq_true, beq_iff_eq] at ends
  exact ends.1

end

end Block

namespace Structured

/-! ## The lines of constructs -/

inductive Form
  | conditional
  | loop
  | switch
deriving DecidableEq, Repr

namespace Form

def opens : Form → Block → Bool
  | .conditional, block => block.opensConditional
  | .loop, block => block.kind == .loop
  | .switch, block => block.kind == .switch

def heads : Form → Block → Bool
  | .conditional, block => block.isBranch
  | .loop, _ => false
  | .switch, block => block.kind == .case

def closes : Form → Block → Bool
  | .conditional, block => block.isIfEnd
  | .loop, block => block.kind == .process && !block.isIfEnd && !block.isSwitchEnd
  | .switch, block => block.isSwitchEnd

def kinds : Form → List Block.Kind
  | .conditional => [.condition, .elseIf, .implicitElse]
  | .loop => [.loop]
  | .switch => [.switch, .case]

theorem ne_process_and_ne_stop_of_mem_kinds :
    ∀ form : Form, ∀ kind ∈ form.kinds, kind ≠ .process ∧ kind ≠ .stop := by
  intro form
  cases form <;> decide

theorem not_mem_kinds_of_plain : ∀ form : Form, ∀ kind ∈ Block.Kind.plain, kind ∉ form.kinds := by
  intro form
  cases form <;> decide

theorem not_mem_kinds_of_ne (form other : Form) (differs : other ≠ form) :
    ∀ kind ∈ other.kinds, kind ∉ form.kinds := by
  cases form <;> cases other <;> first | exact absurd rfl differs | decide

section

variable {form other : Form} {block : Block}

theorem kind_mem_of_opens (opener : form.opens block = true) : block.kind ∈ form.kinds := by
  cases form with
  | conditional => simp [kinds, Block.kind_of_opensConditional opener]
  | loop => simp [kinds, eq_of_beq opener]
  | switch => simp [kinds, eq_of_beq opener]

theorem kind_mem_of_heads (header : form.heads block = true) : block.kind ∈ form.kinds := by
  cases form with
  | conditional =>
      simp only [heads, Block.isBranch, Bool.or_eq_true, beq_iff_eq] at header
      rcases header with (elseIf | implicit) | isElse
      · simp [kinds, elseIf]
      · simp [kinds, implicit]
      · simp [kinds, Block.kind_of_isElse isElse]
  | loop => cases header
  | switch => simp [kinds, eq_of_beq header]

theorem kind_of_closes (ends : form.closes block = true) : block.kind = .process := by
  cases form with
  | conditional => exact Block.kind_of_isIfEnd ends
  | loop =>
      simp only [closes, Bool.and_eq_true, beq_iff_eq] at ends
      exact ends.1.1
  | switch => exact Block.kind_of_isSwitchEnd ends

theorem not_opens_of_kind (foreign : block.kind ∉ form.kinds) : form.opens block = false :=
  Bool.eq_false_iff.mpr fun opener => foreign (kind_mem_of_opens opener)

theorem not_heads_of_kind (foreign : block.kind ∉ form.kinds) : form.heads block = false :=
  Bool.eq_false_iff.mpr fun header => foreign (kind_mem_of_heads header)

theorem not_closes_of_kind (own : block.kind ∈ form.kinds) : other.closes block = false :=
  Bool.eq_false_iff.mpr fun ends =>
    (ne_process_and_ne_stop_of_mem_kinds form _ own).1 (kind_of_closes ends)

theorem not_opens_of_heads (header : form.heads block = true) : form.opens block = false := by
  cases form with
  | conditional =>
      apply Bool.eq_false_iff.mpr
      intro opener
      rw [heads, Block.not_isBranch_of_opensConditional opener] at header
      cases header
  | loop => cases header
  | switch =>
      have isCase : block.kind = .case := eq_of_beq header
      simp [opens, isCase]

theorem not_closes_of_closes (ends : other.closes block = true) (marked : form ≠ .loop)
    (differs : other ≠ form) : form.closes block = false := by
  cases form with
  | loop => exact absurd rfl marked
  | conditional =>
      cases other with
      | conditional => exact absurd rfl differs
      | loop =>
          simp only [closes, Bool.and_eq_true, Bool.not_eq_true'] at ends
          exact ends.1.2
      | switch => exact Block.not_isIfEnd_of_isSwitchEnd ends
  | switch =>
      cases other with
      | conditional => exact Block.not_isSwitchEnd_of_isIfEnd ends
      | loop =>
          simp only [closes, Bool.and_eq_true, Bool.not_eq_true'] at ends
          exact ends.2
      | switch => exact absurd rfl differs

end

end Form

/-! ## Searching for an end marker -/

def collected (branches : List Nat) (found : Option (List Nat × Nat)) : Option (List Nat × Nat) :=
  found.map fun (later, marker) => (branches ++ later, marker)

@[simp] theorem collected_nil (found : Option (List Nat × Nat)) : collected [] found = found := by
  cases found <;> rfl

theorem collected_append (first second : List Nat) (found : Option (List Nat × Nat)) :
    collected (first ++ second) found = collected first (collected second found) := by
  cases found <;> simp [collected]

section

variable {base : Int} {block : Block} (depth index : Nat) (rest : List Block)

theorem markedConditional_opener (opens : block.opensConditional = true)
    (above : base ≤ block.level) :
    Extent.markedConditional base depth index (block :: rest) =
      Extent.markedConditional base (depth + 1) (index + 1) rest := by
  have within : block.Within base := ⟨by simp [Block.kind_of_opensConditional opens], above⟩
  rw [Extent.markedConditional_cons depth index rest within, Extent.depthBehind?_of_opens opens,
    Block.not_isBranch_of_opensConditional opens]
  simp

theorem markedConditional_closer (ends : block.isIfEnd = true) (above : base ≤ block.level) :
    Extent.markedConditional base 0 index (block :: rest) = some ([], index) ∧
      Extent.markedConditional base (depth + 1) index (block :: rest) =
        Extent.markedConditional base depth (index + 1) rest := by
  have isProcess := Block.kind_of_isIfEnd ends
  have within : block.Within base := ⟨by simp [isProcess], above⟩
  have noOpener : block.opensConditional = false :=
    Block.not_opensConditional_of_ne (by simp [isProcess])
  rw [Extent.markedConditional_cons 0 index rest within,
    Extent.markedConditional_cons (depth + 1) index rest within]
  simp [Extent.depthBehind?, noOpener, ends]

theorem markedConditional_other (running : block.kind ≠ .stop) (above : base ≤ block.level)
    (noOpener : block.opensConditional = false) (noEnd : block.isIfEnd = false) :
    Extent.markedConditional base depth index (block :: rest) =
      collected (if depth = 0 ∧ block.isBranch = true then [index] else [])
        (Extent.markedConditional base depth (index + 1) rest) := by
  rw [Extent.markedConditional_cons depth index rest ⟨running, above⟩, collected]
  simp only [Extent.depthBehind?, noOpener, noEnd, Bool.false_eq_true, if_false]
  split
  · rfl
  · rfl

theorem markedSwitch_opener (opens : block.kind = .switch) (above : base ≤ block.level) :
    Extent.markedSwitch base depth index (block :: rest) =
      Extent.markedSwitch base (depth + 1) (index + 1) rest := by
  have goesOn := Extent.not_ended_of_within ⟨by simp [opens], above⟩
  cases depth with
  | zero => rw [Extent.markedSwitch, if_neg goesOn, if_pos opens]
  | succ depth => rw [Extent.markedSwitch, if_neg goesOn, if_pos opens]

theorem markedSwitch_closer (ends : block.isSwitchEnd = true) (above : base ≤ block.level) :
    Extent.markedSwitch base 0 index (block :: rest) = some ([], index) ∧
      Extent.markedSwitch base (depth + 1) index (block :: rest) =
        Extent.markedSwitch base depth (index + 1) rest := by
  have isProcess := Block.kind_of_isSwitchEnd ends
  have goesOn := Extent.not_ended_of_within ⟨by simp [isProcess], above⟩
  have noOpener : block.kind ≠ .switch := by
    simp [isProcess]
  constructor
  · rw [Extent.markedSwitch, if_neg goesOn, if_neg noOpener, if_pos ends]
  · rw [Extent.markedSwitch, if_neg goesOn, if_neg noOpener, if_pos ends]

theorem markedSwitch_other (running : block.kind ≠ .stop) (above : base ≤ block.level)
    (noOpener : block.kind ≠ .switch) (noEnd : block.isSwitchEnd = false) :
    Extent.markedSwitch base depth index (block :: rest) =
      collected (if depth = 0 ∧ block.kind = .case then [index] else [])
        (Extent.markedSwitch base depth (index + 1) rest) := by
  have goesOn := Extent.not_ended_of_within ⟨running, above⟩
  cases depth with
  | zero =>
      rw [Extent.markedSwitch, if_neg goesOn, if_neg noOpener, if_neg (by simp [noEnd]), collected]
      split <;> rfl
  | succ depth =>
      rw [Extent.markedSwitch, if_neg goesOn, if_neg noOpener, if_neg (by simp [noEnd]), collected]
      split <;> rfl

end

/-! ## One search for both end markers -/

/-- The headers of arms and the end marker of a construct on level `base`, looked for from `index`
on inside `depth` further constructs of its form. A loop has no marker. -/
def search (form : Form) (base : Int) (depth index : Nat) (rest : List Block) :
    Option (List Nat × Nat) :=
  match form with
  | .conditional => Extent.markedConditional base depth index rest
  | .loop => none
  | .switch => Extent.markedSwitch base depth index rest

section

variable {form other : Form} {base : Int} {block : Block} (depth index : Nat) (rest : List Block)

theorem search_opener (opens : form.opens block = true) (above : base ≤ block.level) :
    search form base depth index (block :: rest) =
      search form base (depth + 1) (index + 1) rest := by
  cases form with
  | conditional => exact markedConditional_opener depth index rest opens above
  | loop => rfl
  | switch => exact markedSwitch_opener depth index rest (eq_of_beq opens) above

theorem search_closer (ends : form.closes block = true) (above : base ≤ block.level) :
    search form base (depth + 1) index (block :: rest) =
      search form base depth (index + 1) rest := by
  cases form with
  | conditional => exact (markedConditional_closer depth index rest ends above).2
  | loop => rfl
  | switch => exact (markedSwitch_closer depth index rest ends above).2

theorem search_marker (marked : form ≠ .loop) (ends : form.closes block = true)
    (above : base ≤ block.level) :
    search form base 0 index (block :: rest) = some ([], index) := by
  cases form with
  | conditional => exact (markedConditional_closer 0 index rest ends above).1
  | loop => exact absurd rfl marked
  | switch => exact (markedSwitch_closer 0 index rest ends above).1

theorem search_other (running : block.kind ≠ .stop) (above : base ≤ block.level)
    (noOpener : form.opens block = false) (noEnd : form.closes block = false) :
    search form base depth index (block :: rest) =
      collected (if depth = 0 ∧ form.heads block = true then [index] else [])
        (search form base depth (index + 1) rest) := by
  cases form with
  | conditional => exact markedConditional_other depth index rest running above noOpener noEnd
  | loop => rfl
  | switch =>
      simp only [Form.heads, beq_iff_eq]
      exact markedSwitch_other depth index rest running above (ne_of_beq_false noOpener) noEnd

theorem search_header (header : form.heads block = true) (above : base ≤ block.level) :
    search form base depth index (block :: rest) =
      collected (if depth = 0 then [index] else []) (search form base depth (index + 1) rest) := by
  have own := Form.kind_mem_of_heads header
  rw [search_other depth index rest (Form.ne_process_and_ne_stop_of_mem_kinds form _ own).2 above
    (Form.not_opens_of_heads header) (Form.not_closes_of_kind own)]
  simp only [header, and_true]

theorem search_passed (foreign : block.kind ∉ form.kinds) (running : block.kind ≠ .stop)
    (noEnd : form.closes block = false) (above : base ≤ block.level) :
    search form base depth index (block :: rest) = search form base depth (index + 1) rest := by
  rw [search_other depth index rest running above (Form.not_opens_of_kind foreign) noEnd,
    Form.not_heads_of_kind foreign]
  simp only [Bool.false_eq_true, and_false, if_false, collected_nil]

theorem search_simple (plain : block.IsPlain) (marked : form ≠ .loop) (above : base ≤ block.level) :
    search form base depth index (block :: rest) = search form base depth (index + 1) rest := by
  apply search_passed depth index rest (Form.not_mem_kinds_of_plain form _ plain.kind)
    (Block.ne_of_plain plain.kind (by decide)) _ above
  cases form with
  | conditional => exact plain.noIfEnd
  | loop => exact absurd rfl marked
  | switch => exact plain.noSwitchEnd

theorem search_foreign (own : block.kind ∈ other.kinds) (differs : other ≠ form)
    (above : base ≤ block.level) :
    search form base depth index (block :: rest) = search form base depth (index + 1) rest :=
  search_passed depth index rest (Form.not_mem_kinds_of_ne form other differs _ own)
    (Form.ne_process_and_ne_stop_of_mem_kinds other _ own).2 (Form.not_closes_of_kind own) above

theorem search_foreignCloser (ends : other.closes block = true) (marked : form ≠ .loop)
    (differs : other ≠ form) (above : base ≤ block.level) :
    search form base depth index (block :: rest) = search form base depth (index + 1) rest := by
  have isProcess := Form.kind_of_closes ends
  have foreign : block.kind ∉ form.kinds := fun own =>
    (Form.ne_process_and_ne_stop_of_mem_kinds form _ own).1 isProcess
  exact search_passed depth index rest foreign (by simp [isProcess])
    (Form.not_closes_of_closes ends marked differs) above

/-! ### Whole constructs -/

variable {rest}

/-- A construct is passed over as a whole: one of the form that is searched for is a depth further
in up to its own end line, and the lines of another one mean nothing. -/
theorem search_construct {opener closer : Block} {inside behind : List Block} {heads : List Nat}
    {stop : Nat} (marked : form ≠ .loop) (opens : other.opens opener = true)
    (ends : other.closes closer = true) (above : base ≤ opener.level)
    (closerAbove : base ≤ closer.level)
    (passed : ∀ depth, search form base depth (index + 1) inside =
      collected (if other = form ∧ depth = 0 then heads else [])
        (search form base depth stop (closer :: behind))) :
    search form base depth index (opener :: inside) =
      search form base depth (stop + 1) behind := by
  by_cases same : other = form
  · subst same
    rw [search_opener depth index _ opens above, passed, search_closer depth _ _ ends closerAbove]
    simp
  · rw [search_foreign depth index _ (Form.kind_mem_of_opens opens) same above, passed,
      search_foreignCloser depth _ _ ends marked same closerAbove]
    simp [same]

/-- Of the headers, those of the form that is searched for are collected outside all inner
constructs. -/
theorem search_arm {header : Block} {inside : List Block} {heads : List Nat}
    {found : Option (List Nat × Nat)} (isHeader : other.heads header = true)
    (above : base ≤ header.level)
    (passed : search form base depth (index + 1) inside =
      collected (if other = form ∧ depth = 0 then heads else []) found) :
    search form base depth index (header :: inside) =
      collected (if other = form ∧ depth = 0 then index :: heads else []) found := by
  by_cases same : other = form
  · subst same
    rw [search_header depth index _ isHeader above, passed]
    by_cases outside : depth = 0
    · simp [outside, ← collected_append]
    · simp [outside]
  · rw [search_foreign depth index _ (Form.kind_mem_of_heads isHeader) same above, passed]
    simp [same]

end

/-! ## Extents -/

/-- The extent of a construct with so many blocks in its first body, and no other ones than its own
headers of arms and its own end line. -/
def Form.Reaches (form : Form) (blocks : List Block) (start bodySize : Nat) (heads : List Nat)
    (stop : Nat) : Prop :=
  match form with
  | .conditional => conditionalExtent blocks start = ⟨start, heads, some stop, true⟩
  | .loop =>
      loopExtent blocks start =
        ⟨start, if bodySize = 0 then none else some (start + bodySize), some stop⟩
  | .switch => switchExtent blocks start = ⟨start, heads, some stop, true⟩

theorem Form.reaches_of_search {form : Form} (marked : form ≠ .loop) {blocks rest : List Block}
    {start bodySize stop : Nat} {heads : List Nat} {opener : Block}
    (suffix : blocks.drop start = opener :: rest)
    (found : search form opener.level 0 (start + 1) rest = some (heads, stop)) :
    form.Reaches blocks start bodySize heads stop := by
  cases form with
  | conditional =>
      have found : Extent.markedConditional opener.level 0 (start + 1) rest = some (heads, stop) :=
        found
      simp only [Reaches, conditionalExtent, suffix, Extent.ofConditional, found]
  | loop => exact absurd rfl marked
  | switch =>
      have found : Extent.markedSwitch opener.level 0 (start + 1) rest = some (heads, stop) := found
      simp only [Reaches, switchExtent, suffix, Extent.ofSwitch, found]

end Structured

end Flowchart
