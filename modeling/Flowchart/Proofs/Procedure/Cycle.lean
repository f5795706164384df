import Flowchart.Proofs.Call.Padding
import Flowchart.Proofs.Procedure.CallGraph
import Flowchart.Proofs.Procedure.Extracted
import Flowchart.Proofs.Recursion.Analyzed
import Mathlib.Data.List.Nodup

/-!
The functions of a text that are reported to be recursive.

Calls are looked for twice: for the graph of calls in all lines of a body, and for the report in
those that are no comments. A function is reported if it calls one that leads back to it in the
graph. So every cycle of calls is reported, and more is reported where only a comment closes the
cycle.
-/

namespace Flowchart

open Text

namespace Procedure

def definitions (text : List Char) : List Captured := captured (segments (lines text))

/-! ## Calls and mentions -/

section

variable (functions : List Captured)

/-- A function has another one named in a line as in a call, be it in a comment. -/
def Mentions (caller callee : Captured) : Prop :=
  caller ∈ functions ∧ callee ∈ functions ∧
    ∃ line ∈ caller.body, findCalls line callee.header.name.toList ≠ []

def Calls (caller callee : Captured) : Prop :=
  caller ∈ functions ∧ callee ∈ functions ∧
    ∃ line ∈ caller.body, Recursion.isComment (Outline.content line) = false ∧
      findCalls line callee.header.name.toList ≠ []

instance (caller callee : Captured) : Decidable (Calls functions caller callee) :=
  inferInstanceAs (Decidable (_ ∧ _ ∧ ∃ line ∈ caller.body, _ ∧ _))

def OnCycle (function : Captured) : Prop := Relation.TransGen (Calls functions) function function

end

structure Listed (functions : List Captured) : Prop where
  header : ∀ function ∈ functions, ∃ line, Header.read? line = some function.header
  unbroken : ∀ function ∈ functions, ∀ line ∈ function.body, ∀ c ∈ line, isLineBreak c = false
  distinct : (functions.map fun function => Call.plainName (some function.header.name)).Nodup

variable {functions : List Captured} {caller callee function : Captured}

theorem Calls.mentions (calls : Calls functions caller callee) :
    Mentions functions caller callee := by
  rcases calls with ⟨isCaller, isCallee, line, inBody, _, found⟩
  exact ⟨isCaller, isCallee, line, inBody, found⟩

theorem Listed.eq_of_plainName (listed : Listed functions) (left : caller ∈ functions)
    (right : callee ∈ functions)
    (same : Call.plainName (some caller.header.name) = Call.plainName (some callee.header.name)) :
    caller = callee :=
  List.inj_on_of_nodup_map listed.distinct left right same

theorem Listed.eq_of_name (listed : Listed functions) (left : caller ∈ functions)
    (right : callee ∈ functions) (same : caller.header.name = callee.header.name) :
    caller = callee :=
  listed.eq_of_plainName left right (congrArg (fun name => Call.plainName (some name)) same)

/-! ## The graph of calls -/

theorem lookup_cons_eq_ite {α : Type} (name key : String) (value : α)
    (fields : List (String × α)) :
    ((key, value) :: fields).lookup name =
      if name = key then some value else fields.lookup name := by
  rw [List.lookup_cons]
  by_cases same : name = key
  · simp [same]
  · rw [beq_false_of_ne same, if_neg same]

theorem lookup_putField {α : Type} (name key : String) (value : α) (fields : List (String × α)) :
    (putField key value fields).lookup name =
      if name = key then some value else fields.lookup name := by
  induction fields with
  | nil => exact lookup_cons_eq_ite name key value []
  | cons field fields induction =>
      rcases field with ⟨other, old⟩
      rw [putField, lookup_cons_eq_ite]
      split
      · rename_i isKey
        rw [lookup_cons_eq_ite, isKey]
        split <;> rfl
      · rename_i notKey
        rw [lookup_cons_eq_ite, induction]
        by_cases same : name = other
        · rw [if_pos same, if_neg (same ▸ notKey), if_pos same]
        · rw [if_neg same, if_neg same]

theorem lookup_foldl_putField {α β : Type} (key : β → String) (value : β → α) (name : String)
    (entries : List β) (fields : List (String × α)) :
    (name ∉ entries.map key →
        (entries.foldl (fun fields entry => putField (key entry) (value entry) fields)
          fields).lookup name = fields.lookup name) ∧
      ((entries.map key).Nodup → ∀ entry ∈ entries, key entry = name →
        (entries.foldl (fun fields entry => putField (key entry) (value entry) fields)
          fields).lookup name = some (value entry)) := by
  induction entries generalizing fields with
  | nil => exact ⟨fun _ => rfl, nofun⟩
  | cons first entries induction =>
      rcases induction (putField (key first) (value first) fields) with ⟨absent, present⟩
      rw [lookup_putField] at absent
      refine ⟨fun missing => ?_, fun distinct entry member named => ?_⟩
      · rw [List.map_cons, List.mem_cons, not_or] at missing
        rw [List.foldl_cons, absent missing.2, if_neg missing.1]
      · rw [List.map_cons, List.nodup_cons] at distinct
        rcases List.mem_cons.mp member with rfl | later
        · subst named
          rw [List.foldl_cons, absent distinct.1, if_pos rfl]
        · exact present distinct.2 entry later named

theorem Listed.distinct_names (listed : Listed functions) :
    (functions.map fun function => function.header.name).Nodup := by
  have images : ((functions.map fun function => function.header.name).map fun name =>
      Call.plainName (some name)).Nodup := by
    rw [List.map_map]
    exact listed.distinct
  exact List.Nodup.of_map _ images

theorem callees_callGraph (listed : Listed functions) (member : function ∈ functions) :
    (callGraph functions).callees function.header.name =
      ((functions.map (·.header.name)).filter fun other =>
        other ≠ function.header.name &&
          callsFunction (joinLines function.body) other.toList).eraseDups := by
  have found := (lookup_foldl_putField (fun function : Captured => function.header.name)
    (fun function => ((functions.map (·.header.name)).filter fun other =>
      other ≠ function.header.name &&
        callsFunction (joinLines function.body) other.toList).eraseDups)
    function.header.name functions []).2 listed.distinct_names function member rfl
  rw [CallGraph.callees, callGraph]
  dsimp only at found ⊢
  rw [found]
  rfl

theorem callsFunction_iff {name : List Char} {body : List (List Char)}
    (unbroken : ∀ line ∈ body, ∀ c ∈ line, isLineBreak c = false) :
    callsFunction (joinLines body) name = true ↔ ∃ line ∈ body, findCalls line name ≠ [] := by
  have ofEmpty : ¬findCalls [] name ≠ [] := by
    simp [findCalls, Call.occurrences]
  rw [← exists_mem_lines_joinLines_iff ofEmpty unbroken, callsFunction, List.any_eq_true]
  simp

theorem leads_iff (listed : Listed functions) (member : function ∈ functions) {name : String} :
    (callGraph functions).Leads function.header.name name ↔
      ∃ callee, callee.header.name = name ∧ callee ≠ function ∧
        Mentions functions function callee := by
  rw [CallGraph.Leads, callees_callGraph listed member, List.mem_eraseDups, List.mem_filter,
    Bool.and_eq_true, callsFunction_iff (listed.unbroken function member), List.mem_map]
  constructor
  · rintro ⟨⟨callee, isCallee, rfl⟩, different, mentioned⟩
    refine ⟨callee, rfl, ?_, member, isCallee, mentioned⟩
    rintro rfl
    simp at different
  · rintro ⟨callee, rfl, different, _, isCallee, mentioned⟩
    refine ⟨⟨callee, isCallee, rfl⟩, ?_, mentioned⟩
    simpa using fun same => different (listed.eq_of_name isCallee member same)

theorem leads_path_iff (listed : Listed functions) (isCaller : caller ∈ functions)
    (isCallee : callee ∈ functions) :
    Relation.ReflTransGen (callGraph functions).Leads caller.header.name callee.header.name ↔
      Relation.ReflTransGen (Mentions functions) caller callee := by
  constructor
  · intro path
    generalize source : caller.header.name = name at path
    induction path using Relation.ReflTransGen.head_induction_on generalizing caller with
    | refl => exact listed.eq_of_name isCaller isCallee source ▸ .refl
    | head step _ induction =>
        subst source
        rcases (leads_iff listed isCaller).mp step with ⟨next, rfl, _, mentions⟩
        exact (induction mentions.2.1 rfl).head mentions
  · intro path
    induction path using Relation.ReflTransGen.head_induction_on with
    | refl => exact .refl
    | @head function next step _ induction =>
        have later := induction step.2.1
        by_cases same : next = function
        · exact same ▸ later
        · exact later.head ((leads_iff listed step.1).mpr ⟨next, rfl, same, step⟩)

/-! ## Reports -/

theorem mem_targetsOf_iff (listed : Listed functions) (member : function ∈ functions)
    {target : String} :
    target ∈ Recursion.targetsOf function.header.name
        ((callGraph functions).mutualPartners function.header.name) ↔
      ∃ callee ∈ functions, callee.header.name = target ∧
        (callee = function ∨ Mentions functions function callee ∧
          Relation.ReflTransGen (Mentions functions) callee function) := by
  rw [Recursion.targetsOf, List.mem_cons, List.mem_filter, CallGraph.mem_mutualPartners_iff,
    leads_iff listed member]
  constructor
  · rintro (rfl | ⟨⟨⟨callee, rfl, _, mentions⟩, path⟩, _⟩)
    · exact ⟨function, member, rfl, .inl rfl⟩
    · exact ⟨callee, mentions.2.1, rfl, .inr ⟨mentions,
        (leads_path_iff listed mentions.2.1 member).mp path⟩⟩
  · rintro ⟨callee, isCallee, rfl, rfl | ⟨mentions, path⟩⟩
    · exact .inl rfl
    · by_cases same : callee = function
      · exact .inl (congrArg (·.header.name) same)
      · refine .inr ⟨⟨⟨callee, rfl, same, mentions⟩,
          (leads_path_iff listed isCallee member).mpr path⟩, ?_⟩
        rw [Bool.not_eq_true', Call.sameName, beq_eq_false_iff_ne]
        exact fun plain => same (listed.eq_of_plainName isCallee member plain)

theorem callPointsIn_dedent_ne_nil_iff {targets : List String} {body : List (List Char)}
    (unbroken : ∀ line ∈ body, ∀ c ∈ line, isLineBreak c = false) :
    Recursion.callPointsIn (Recursion.bodyLines targets (lines (dedent (joinLines body)))) ≠ [] ↔
      ∃ line ∈ body, Recursion.isComment (Outline.content line) = false ∧
        ∃ target ∈ targets, findCalls (Outline.content line) target.toList ≠ [] := by
  have ofEmpty : ¬(Recursion.isComment (Outline.content []) = false ∧
      ∃ target ∈ targets, findCalls (Outline.content []) target.toList ≠ []) := by
    rintro ⟨_, target, _, found⟩
    have nothing : Outline.content [] = [] := by decide
    rw [nothing] at found
    simp [findCalls, Call.occurrences] at found
  rw [← exists_mem_lines_dedent_iff ofEmpty ?_ unbroken, ne_eq,
    Recursion.callPointsIn_eq_nil_iff]
  · push Not
    rfl
  · intro front line blank
    rw [Outline.content_append_of_isBlank blank]

/-- A function is reported if it calls one from which lines, comments among them, lead back. -/
theorem isRecursive_iff (listed : Listed functions) (member : function ∈ functions)
    {scorer : Recursion.Scorer} {procedure : Procedure}
    (made : ofCaptured scorer (callGraph functions) function = .ok procedure) :
    procedure.isRecursive = true ↔
      ∃ callee, Calls functions function callee ∧
        Relation.ReflTransGen (Mentions functions) callee function := by
  rcases of_ofCaptured made with ⟨recursion, analyzed, _, _, isRecursion⟩
  rw [Procedure.isRecursive, isRecursion, Option.any_some,
    Recursion.isRecursive_of_analyze analyzed,
    callPointsIn_dedent_ne_nil_iff (listed.unbroken function member)]
  constructor
  · rintro ⟨line, inBody, noComment, target, isTarget, found⟩
    rcases (mem_targetsOf_iff listed member).mp isTarget with ⟨callee, isCallee, rfl, leadsBack⟩
    rcases listed.header callee isCallee with ⟨header, isHeader⟩
    have words := Header.isWord_of_mem_name isHeader
    rw [ne_eq, Call.findCalls_content words] at found
    refine ⟨callee, ⟨member, isCallee, line, inBody, noComment, found⟩, ?_⟩
    rcases leadsBack with rfl | ⟨_, path⟩
    · exact .refl
    · exact path
  · rintro ⟨callee, calls, path⟩
    have mentions := calls.mentions
    rcases calls with ⟨_, isCallee, line, inBody, noComment, found⟩
    rcases listed.header callee isCallee with ⟨header, isHeader⟩
    have words := Header.isWord_of_mem_name isHeader
    rw [ne_eq, ← Call.findCalls_content words] at found
    exact ⟨line, inBody, noComment, callee.header.name,
      (mem_targetsOf_iff listed member).mpr ⟨callee, isCallee, rfl, .inr ⟨mentions, path⟩⟩, found⟩

theorem OnCycle.leadsBack (onCycle : OnCycle functions function) :
    ∃ callee, Calls functions function callee ∧
      Relation.ReflTransGen (Mentions functions) callee function := by
  rcases (Relation.TransGen.head'_iff).mp onCycle with ⟨callee, calls, path⟩
  exact ⟨callee, calls, Relation.ReflTransGen.mono (fun _ _ => Calls.mentions) _ _ path⟩

/-! ## Texts -/

variable {scorer : Recursion.Scorer} {text : List Char} {extraction : Extraction}

theorem map_eq_of_forall₂ {α β γ : Type} {ofValue : α → γ} {ofResult : β → γ} {values : List α}
    {results : List β}
    (pairs : List.Forall₂ (fun value result => ofResult result = ofValue value) values results) :
    results.map ofResult = values.map ofValue := by
  induction pairs with
  | nil => rfl
  | cons same _ induction => rw [List.map_cons, List.map_cons, same, induction]

theorem names_of_extract (extracted : extract scorer text = .ok extraction) :
    List.Forall₂ (fun function procedure => procedure.name = function.header.name)
      (definitions text) extraction.procedures :=
  (forall₂_of_extract extracted).imp fun _ _ made => by
    rcases of_ofCaptured made with ⟨_, _, name, _⟩
    exact name

theorem listed_definitions (extracted : extract scorer text = .ok extraction)
    (distinct : (extraction.procedures.map fun procedure =>
      Call.plainName (some procedure.name)).Nodup) : Listed (definitions text) where
  header := by
    intro function member
    rcases (of_mem_captured member).1 with ⟨line, _, isHeader⟩
    exact ⟨line, isHeader⟩
  unbroken := by
    intro function member line inBody
    exact not_isLineBreak_of_mem_lines ((of_mem_captured member).2 line inBody)
  distinct := by
    have names := (names_of_extract extracted).imp fun _ _ =>
      congrArg fun name => Call.plainName (some name)
    rw [← map_eq_of_forall₂ names]
    exact distinct

theorem reported_of_extract (extracted : extract scorer text = .ok extraction)
    (distinct : (extraction.procedures.map fun procedure =>
      Call.plainName (some procedure.name)).Nodup) :
    List.Forall₂ (fun function procedure => procedure.isRecursive = true ↔
        ∃ callee, Calls (definitions text) function callee ∧
          Relation.ReflTransGen (Mentions (definitions text)) callee function)
      (definitions text) extraction.procedures := by
  have listed := listed_definitions extracted distinct
  have pairs := List.forall₂_iff_zip.mp (forall₂_of_extract extracted)
  refine List.forall₂_iff_zip.mpr ⟨pairs.1, fun {function procedure} pair => ?_⟩
  exact isRecursive_iff listed (List.of_mem_zip pair).1 (pairs.2 pair)

/-- Every function on a cycle of calls is reported. No others are, just if every function that
calls one from which lines, comments among them, lead back lies on a cycle of calls. -/
theorem reports_onCycle_iff (extracted : extract scorer text = .ok extraction)
    (distinct : (extraction.procedures.map fun procedure =>
      Call.plainName (some procedure.name)).Nodup) :
    List.Forall₂ (fun function procedure => procedure.name = function.header.name ∧
        (OnCycle (definitions text) function → procedure.isRecursive = true))
      (definitions text) extraction.procedures ∧
    (List.Forall₂ (fun function procedure =>
          procedure.isRecursive = true ↔ OnCycle (definitions text) function)
        (definitions text) extraction.procedures ↔
      ∀ caller callee, Calls (definitions text) caller callee →
        Relation.ReflTransGen (Mentions (definitions text)) callee caller →
          OnCycle (definitions text) caller) := by
  have reported := List.forall₂_iff_zip.mp (reported_of_extract extracted distinct)
  have names := List.forall₂_iff_zip.mp (names_of_extract extracted)
  refine ⟨List.forall₂_iff_zip.mpr ⟨reported.1, fun pair => ⟨names.2 pair, fun onCycle => ?_⟩⟩,
    fun exact' caller callee calls path => ?_, fun closed => ?_⟩
  · exact (reported.2 pair).mpr onCycle.leadsBack
  · have both := List.forall₂_iff_zip.mpr ⟨reported.1, fun pair =>
      And.intro (reported.2 pair) ((List.forall₂_iff_zip.mp exact').2 pair)⟩
    rcases exists_of_forall₂ both calls.1 with ⟨procedure, _, isReported, isOnCycle⟩
    exact isOnCycle.mp (isReported.mpr ⟨callee, calls, path⟩)
  · refine List.forall₂_iff_zip.mpr ⟨reported.1, fun {function procedure} pair => ?_⟩
    rw [reported.2 pair]
    exact ⟨fun ⟨callee, calls, path⟩ => closed function callee calls path, OnCycle.leadsBack⟩

def pingPong : List Char :=
  "Function ping(n)\n    // never help()\n    Call pong(n)\nEnd function\n".toList ++
    "Function pong(n)\n    Call ping(n)\nEnd function\n".toList ++
    "Function help()\n    Output n\nEnd function\nStart\nEnd".toList

theorem reports_onCycle_pingPong :
    ∃ extraction, extract .standard pingPong = .ok extraction ∧
      (extraction.procedures.map fun procedure =>
        Call.plainName (some procedure.name)).Nodup ∧
      List.Forall₂ (fun function procedure =>
          procedure.isRecursive = true ↔ OnCycle (definitions pingPong) function)
        (definitions pingPong) extraction.procedures := by
  have distinct : (extract .standard pingPong).toOption.any (fun extraction =>
      decide (extraction.procedures.map fun procedure =>
        Call.plainName (some procedure.name)).Nodup) = true := by
    decide +kernel
  have answered : ∀ caller ∈ definitions pingPong, ∀ callee ∈ definitions pingPong,
      Calls (definitions pingPong) caller callee → Calls (definitions pingPong) callee caller := by
    decide +kernel
  cases extracted : extract .standard pingPong with
  | error error =>
      rw [extracted] at distinct
      cases distinct
  | ok extraction =>
      rw [extracted] at distinct
      have distinct := of_decide_eq_true distinct
      refine ⟨extraction, rfl, distinct, (reports_onCycle_iff extracted distinct).2.mpr ?_⟩
      intro caller callee calls _
      exact .tail (.single calls) (answered caller calls.1 callee calls.2.1 calls)

def commented : List Char :=
  "Function f()\n    // Call g()\n    Output x\nEnd function\n".toList ++
    "Function g()\n    Call f()\nEnd function\nStart\nEnd".toList

/-- A comment can make a caller recursive. -/
theorem exists_reported_off_cycle : ¬∀ (text : List Char) (extraction : Extraction),
    extract .standard text = .ok extraction →
      (extraction.procedures.map fun procedure =>
        Call.plainName (some procedure.name)).Nodup →
      List.Forall₂ (fun function procedure =>
          procedure.isRecursive = true ↔ OnCycle (definitions text) function)
        (definitions text) extraction.procedures := by
  intro all
  have reported : (extract .standard commented).toOption.any (fun extraction =>
      decide ((extraction.procedures.map fun procedure =>
        Call.plainName (some procedure.name)).Nodup ∧
      ∃ pair ∈ (definitions commented).zip extraction.procedures,
        pair.2.isRecursive = true ∧
          ∀ caller ∈ definitions commented, ¬Calls (definitions commented) caller pair.1)) =
        true := by
    decide +kernel
  cases extracted : extract .standard commented with
  | error error =>
      rw [extracted] at reported
      cases reported
  | ok extraction =>
      rw [extracted] at reported
      rcases of_decide_eq_true reported with ⟨distinct, pair, isPair, isRecursive, uncalled⟩
      have onCycle :=
        ((List.forall₂_iff_zip.mp (all _ _ extracted distinct)).2 isPair).mp isRecursive
      rcases Relation.TransGen.tail'_iff.mp onCycle with ⟨caller, _, calls⟩
      exact uncalled caller calls.1 calls

end Procedure

end Flowchart
