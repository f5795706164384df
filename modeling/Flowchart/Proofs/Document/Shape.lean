import Mathlib
import Flowchart.Document
import Flowchart.Document.Schema

/-!
When the parts of a program have the shape that a document asks for.

Most of what a program holds has its shape by the way it is written; what is left is asked of names
that come from open lists, of numbers that may be negative, and of the name of a function, which may
not be empty.
-/

namespace Flowchart

open Document Document.Shape

namespace Document.Shape

/-! ## Shapes and values -/

section Accepts

variable {value : Json} {fields : List (String × Json)}

@[simp] theorem accepts_bool (value : Bool) : bool.accepts (.bool value) = true := rfl

@[simp] theorem accepts_text (least : Nat) (value : String) :
    (text least).accepts (.text value) = decide (least ≤ value.length) := rfl

@[simp] theorem accepts_word (words : List String) (value : String) :
    (word words).accepts (.text value) = words.contains value := rfl

@[simp] theorem accepts_natural (value : Number) :
    natural.accepts (.number value) = isNatural value := rfl

@[simp] theorem accepts_fraction (value : Number) :
    fraction.accepts (.number value) = isFraction value := rfl

@[simp] theorem accepts_array (items : Shape) (values : List Json) :
    (array items).accepts (.array values) = values.all items.accepts := rfl

@[simp] theorem accepts_object (required optional : List (String × Shape)) (closed : Bool) :
    (object required optional closed).accepts (.object fields) =
      (acceptsFields true required fields && acceptsFields false optional fields &&
        (!closed || fields.all fun field =>
          required.any (·.1 = field.1) || optional.any (·.1 = field.1))) := rfl

theorem accepts_orNull_null (shape : Shape) : shape.orNull.accepts .null = true := rfl

theorem accepts_orNull (shape : Shape) (notNull : value ≠ .null) :
    shape.orNull.accepts value = shape.accepts value := by
  cases value with
  | null => exact absurd rfl notNull
  | _ => rfl

@[simp] theorem acceptsFields_nil (needed : Bool) : acceptsFields needed [] fields = true := rfl

@[simp] theorem acceptsFields_cons (needed : Bool) (name : String) (shape : Shape)
    (rest : List (String × Shape)) :
    acceptsFields needed ((name, shape) :: rest) fields =
      ((match fields.lookup name with
        | some value => shape.accepts value
        | none => !needed) && acceptsFields needed rest fields) := rfl

end Accepts

theorem isNatural_int (value : Int) : isNatural (.int value) = decide (0 ≤ value) := by
  have isNegative : (Number.int value).isNegative = decide (value < 0) := by
    rw [Number.isNegative, Number.less, Number.compare?]
    simp [Int.compare_eq_lt]
  rw [isNatural, isNegative, Number.isWhole, Bool.true_and, ← decide_not]
  simp only [Int.not_lt]

theorem accepts_anyText (text : String) : anyText.accepts (.text text) = true := by
  simp [anyText]

theorem accepts_natural_ofNat (value : Nat) : natural.accepts (.ofNat value) = true := by
  simp [Json.ofNat, Json.int, isNatural_int]

theorem accepts_texts (texts : List String) : (array anyText).accepts (.texts texts) = true := by
  simp [Json.texts, accepts_anyText]

theorem accepts_orNull_iff {α : Type} {shape : Shape} {encode : α → Json} {value : Option α}
    (notNull : ∀ value, encode value ≠ .null) :
    shape.orNull.accepts (.ofOption encode value) = true ↔
      ∀ found ∈ value, shape.accepts (encode found) = true := by
  cases value with
  | none => simp [Json.ofOption, accepts_orNull_null]
  | some found => simp [Json.ofOption, accepts_orNull shape (notNull found)]

theorem accepts_orNull_text (text : Option String) :
    anyText.orNull.accepts (.ofOption .text text) = true :=
  (accepts_orNull_iff nofun).mpr fun found _ => accepts_anyText found

end Document.Shape

theorem Block.accepts_toJson_iff {block : Block} : Document.block.accepts block.toJson = true ↔
    0 ≤ block.level ∧ block.kind.name ∈ Kind.known.map Kind.name := by
  rcases block with ⟨content, level, kind, closing, call⟩
  cases call <;>
    simp [Document.block, toJson, List.lookup, anyText, Json.int,
      isNatural_int]

theorem Edge.accepts_toJson_iff {edge : Edge} : Document.edge.accepts edge.toJson = true ↔
    0 ≤ edge.source ∧ 0 ≤ edge.target ∧ edge.kind.name ∈ Kind.known.map Kind.name ∧
      ∀ depth ∈ edge.depth, 0 ≤ depth := by
  rcases edge with ⟨source, target, kind, depth, label⟩
  cases depth <;> cases label <;>
    simp [Document.edge, toJson, List.lookup, anyText, Json.int,
      isNatural_int, and_assoc]

namespace Recursion

theorem Transformation.accepts_toJson_iff {transformation : Transformation} :
    Document.transformation.accepts transformation.toJson = true ↔
      transformation.change.name ∈ (Change.known ++ [Change.unclear]).map Change.name := by
  have words : (Change.known ++ [Change.unclear]).map Change.name =
      ["decrement", "increment", "divide", "multiply", "property-access", "other"] := rfl
  rw [words]
  simp [Document.transformation, toJson, List.lookup, accepts_anyText,
    accepts_orNull_text]

theorem CallPoint.accepts_toJson (point : CallPoint) :
    Document.callPoint.accepts point.toJson = true := by
  simp [Document.callPoint, toJson, List.lookup, accepts_anyText,
    accepts_texts, accepts_natural_ofNat, accepts_orNull_text]

theorem BaseCase.accepts_toJson_iff {found : BaseCase} :
    Document.baseCase.accepts found.toJson = true ↔ found.exit.name ∈ Exit.known.map Exit.name := by
  simp [Document.baseCase, toJson, List.lookup, accepts_anyText,
    accepts_orNull_text, Exit.known, Exit.name]

theorem RecursiveCase.accepts_toJson_iff {found : RecursiveCase} :
    Document.recursiveCase.accepts found.toJson = true ↔
      ∀ transformation ∈ found.transformations,
        Document.transformation.accepts transformation.toJson = true := by
  have operation : found.operation.name ∈ ["single", "add", "multiply", "combine", "other"] := by
    cases found.operation <;> decide
  simp [Document.recursiveCase, toJson, List.lookup, accepts_anyText,
    accepts_texts, operation]

theorem Pattern.accepts_toJson_iff {pattern : Pattern} :
    Document.pattern.accepts pattern.toJson = true ↔
      pattern.name ∈ Vocabulary.standard.map Prod.fst ++ ["generic"] ∧
        isFraction pattern.confidence = true := by
  have words : Vocabulary.standard.map Prod.fst ++ ["generic"] =
      ["factorial", "fibonacci", "tree-traversal", "binary-search", "merge-sort", "quick-sort",
        "generic"] := rfl
  rw [words]
  simp [Document.pattern, toJson, List.lookup]

end Recursion

theorem Recursion.accepts_toJson_iff {recursion : Recursion} :
    Document.recursion.accepts recursion.toJson = true ↔
      recursion.form.name ∈ Form.known.map Form.name ∧
      (∀ found ∈ recursion.baseCases, found.exit.name ∈ Exit.known.map Exit.name) ∧
      (∀ found ∈ recursion.recursiveCases,
        Document.recursiveCase.accepts found.toJson = true) ∧
      (∀ pattern ∈ recursion.pattern, Document.pattern.accepts pattern.toJson = true) ∧
      ∀ hint ∈ recursion.depthHint, 0 ≤ hint := by
  have hint : natural.orNull.accepts (.ofOption .int recursion.depthHint) = true ↔
      ∀ hint ∈ recursion.depthHint, 0 ≤ hint := by
    rw [accepts_orNull_iff nofun]
    simp [Json.int, isNatural_int]
  have pattern : Document.pattern.orNull.accepts
      (.ofOption Recursion.Pattern.toJson recursion.pattern) = true ↔
        ∀ pattern ∈ recursion.pattern, Document.pattern.accepts pattern.toJson = true :=
    accepts_orNull_iff nofun
  have words : Form.known.map Form.name =
      ["linear", "tree", "tail", "mutual", "nested", "multiple"] := rfl
  rw [words, ← hint, ← pattern]
  simp [Document.recursion, toJson, List.lookup, accepts_orNull_text,
    CallPoint.accepts_toJson, BaseCase.accepts_toJson_iff, and_assoc]

theorem Procedure.accepts_toJson_iff {procedure : Procedure} :
    Document.procedure.accepts procedure.toJson = true ↔
      procedure.name ≠ "" ∧
      (∀ block ∈ procedure.body, Document.block.accepts block.toJson = true) ∧
      (∀ edge ∈ procedure.edges, Document.edge.accepts edge.toJson = true) ∧
      ∀ recursion ∈ procedure.recursion,
        Document.recursion.accepts recursion.toJson = true := by
  have recursion : Document.recursion.orNull.accepts
      (.ofOption Recursion.toJson procedure.recursion) = true ↔
        ∀ recursion ∈ procedure.recursion, Document.recursion.accepts recursion.toJson = true :=
    accepts_orNull_iff fun _ => Json.noConfusion
  have named : 1 ≤ procedure.name.length ↔ ¬procedure.name = "" := by
    rw [Nat.one_le_iff_ne_zero, ne_eq, String.length_eq_zero_iff]
  rw [← recursion]
  simp [Document.procedure, toJson, List.lookup, accepts_texts,
    accepts_natural_ofNat, named, and_assoc]

theorem Program.accepts_toJson_iff {program : Program} :
    Document.shape.accepts program.toJson = true ↔
      (∀ block ∈ program.main.blocks, Document.block.accepts block.toJson = true) ∧
      (∀ edge ∈ program.main.edges, Document.edge.accepts edge.toJson = true) ∧
      ∀ procedure ∈ program.procedures,
        Document.procedure.accepts procedure.toJson = true := by
  have diagnosis : Document.validation.accepts program.diagnosis.toJson = true := by
    simp [Document.validation, Diagnosis.toJson, List.lookup,
      accepts_texts]
  simp [Document.shape, toJson, List.lookup, accepts_anyText, diagnosis]

end Flowchart
