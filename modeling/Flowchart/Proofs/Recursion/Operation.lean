import Flowchart.Proofs.Call.Ordered
import Flowchart.Recursion.Argument

/-!
What an expression does with the results of its calls, and which of its characters say so.

Calls are blanked out from the last to the first, each at the place where it stood at first. So a
call with other calls inside it takes away more than itself: as many characters behind it as the
inner calls have become shorter. A sign outside of all calls counts unless it is among those.
-/

namespace Flowchart.Recursion

/-! ## Places in an expression -/

def IsOutside (sites : List CallSite) (place : Nat) : Prop :=
  ∀ site ∈ sites, site.start ≤ place → site.stop ≤ place

def shortening (sites : List CallSite) (place : Nat) : Nat :=
  (sites.map fun site => if site.start ≤ place then site.stop - site.start - 1 else 0).sum

/-- A place that no call takes away, though each reaches as much further as the calls that begin
behind it have become shorter. -/
def IsRead (sites : List CallSite) (place : Nat) : Prop :=
  ∀ site ∈ sites, site.start ≤ place →
    site.stop + shortening (sites.filter fun other => site.start < other.start) place ≤ place

instance (sites : List CallSite) (place : Nat) : Decidable (IsOutside sites place) :=
  List.decidableBAll (fun site : CallSite => site.start ≤ place → site.stop ≤ place) sites

instance (sites : List CallSite) (place : Nat) : Decidable (IsRead sites place) :=
  List.decidableBAll (fun site : CallSite => site.start ≤ place →
    site.stop + shortening (sites.filter fun other => site.start < other.start) place ≤ place) sites

def blanked (expression : List Char) (sites : List CallSite) : List Char :=
  expression.zipIdx.map fun (c, place) =>
    if sites.any fun site => site.start ≤ place && place < site.stop then ' ' else c

def combined (rest : List Char) (count : Nat) : Operation :=
  if rest.contains '+' then .add
  else if rest.contains '*' then .multiply
  else if 1 < count then .combine
  else if rest.any fun c => c = '-' || c = '/' || c = '%' then .other
  else .single

section

variable {rest : List Char} {count : Nat}

theorem combined_eq_add_iff : combined rest count = .add ↔ rest.contains '+' = true := by
  rw [combined]
  split
  · rename_i plus
    exact iff_of_true rfl plus
  · rename_i noPlus
    refine ⟨fun add => ?_, fun plus => absurd plus noPlus⟩
    split at add
    · cases add
    · split at add
      · cases add
      · split at add
        · cases add
        · cases add

theorem combined_eq_multiply_iff (noPlus : rest.contains '+' = false) :
    combined rest count = .multiply ↔ rest.contains '*' = true := by
  rw [combined, noPlus, if_neg Bool.false_ne_true]
  split
  · rename_i times
    exact iff_of_true rfl times
  · rename_i noTimes
    refine ⟨fun multiply => ?_, fun times => absurd times noTimes⟩
    split at multiply
    · cases multiply
    · split at multiply
      · cases multiply
      · cases multiply

theorem combined_eq_combine (noPlus : rest.contains '+' = false)
    (noTimes : rest.contains '*' = false) (several : 1 < count) :
    combined rest count = .combine := by
  rw [combined, noPlus, noTimes, if_neg Bool.false_ne_true, if_neg Bool.false_ne_true,
    if_pos several]

theorem combined_congr {rest other : List Char} {count : Nat}
    (same : ∀ c, c ≠ ' ' → (c ∈ rest ↔ c ∈ other)) :
    combined rest count = combined other count := by
  have contains {c : Char} (sign : c ≠ ' ') : rest.contains c = other.contains c := by
    rw [Bool.eq_iff_iff, List.contains_iff_mem, List.contains_iff_mem]
    exact same c sign
  have signs : (rest.any fun c => c = '-' || c = '/' || c = '%') =
      other.any fun c => c = '-' || c = '/' || c = '%' := by
    rw [Bool.eq_iff_iff, List.any_eq_true, List.any_eq_true]
    refine exists_congr fun c => and_congr_left fun sign => same c ?_
    rintro rfl
    cases sign
  rw [combined, combined, contains (by decide), contains (by decide), signs]

/-- A part of a text shows the same operation just if the sign that decides in the whole stands in
the part. Where there is no such sign, the number of calls decides, or a part that lacks nothing. -/
theorem combined_eq_iff {whole : List Char} (within : ∀ c, c ≠ ' ' → c ∈ rest → c ∈ whole)
    (alike : count ≤ 1 → ∀ c, c ≠ ' ' → (c ∈ rest ↔ c ∈ whole)) :
    combined rest count = combined whole count ↔
      ∀ sign, ['+', '*'].find? whole.contains = some sign → sign ∈ rest := by
  have lacking {sign : Char} (isSign : sign ≠ ' ') (none : whole.contains sign = false) :
      rest.contains sign = false := by
    rw [← Bool.not_eq_true, List.contains_iff_mem] at none ⊢
    exact fun member => none (within sign isSign member)
  cases plus : whole.contains '+' with
  | true =>
      have deciding : ['+', '*'].find? whole.contains = some '+' := List.find?_cons_of_pos plus
      rw [combined_eq_add_iff.mpr plus, combined_eq_add_iff, deciding, List.contains_iff_mem]
      simp
  | false =>
      have plusThen := lacking (by decide) plus
      have noPlus : ¬whole.contains '+' = true := by rw [plus]; decide
      cases times : whole.contains '*' with
      | true =>
          have deciding : ['+', '*'].find? whole.contains = some '*' :=
            (List.find?_cons_of_neg noPlus).trans (List.find?_cons_of_pos times)
          rw [(combined_eq_multiply_iff plus).mpr times, combined_eq_multiply_iff plusThen,
            deciding, List.contains_iff_mem]
          simp
      | false =>
          have timesThen := lacking (by decide) times
          have noTimes : ¬whole.contains '*' = true := by rw [times]; decide
          have none : ['+', '*'].find? whole.contains = none :=
            (List.find?_cons_of_neg noPlus).trans (List.find?_cons_of_neg noTimes)
          rw [none]
          refine iff_of_true ?_ nofun
          by_cases several : 1 < count
          · rw [combined_eq_combine plusThen timesThen several,
              combined_eq_combine plus times several]
          · exact combined_congr (alike (Nat.le_of_not_lt several))

end

theorem operation_eq (expression : List Char) (sites : List CallSite) :
    operation expression sites = combined (outsideCalls expression sites) sites.length := rfl

section

variable {site : CallSite} {sites : List CallSite} {place : Nat}

theorem shortening_cons : shortening (site :: sites) place =
    (if site.start ≤ place then site.stop - site.start - 1 else 0) + shortening sites place := rfl

theorem IsRead.isOutside (read : IsRead sites place) : IsOutside sites place :=
  fun site member starts => Nat.le_trans (Nat.le_add_right _ _) (read site member starts)

theorem isRead_cons (first : ∀ other ∈ sites, site.start < other.start) :
    IsRead (site :: sites) place ↔
      (site.start ≤ place → site.stop + shortening sites place ≤ place) ∧ IsRead sites place := by
  have own : (site :: sites).filter (fun other => site.start < other.start) = sites := by
    rw [List.filter_cons_of_neg (by simp)]
    exact List.filter_eq_self.mpr fun other member => by simpa using first other member
  have others : ∀ later ∈ sites, (site :: sites).filter (fun other => later.start < other.start) =
      sites.filter fun other => later.start < other.start := by
    intro later member
    have behind := first later member
    rw [List.filter_cons_of_neg (by simp only [decide_eq_true_eq]; omega)]
  rw [IsRead, List.forall_mem_cons, own]
  refine and_congr_right fun _ => forall₂_congr fun later member => ?_
  rw [others later member]

theorem add_shortening_le {first : Nat} (read : IsRead sites place)
    (ordered : sites.Pairwise fun site other => site.start < other.start)
    (behind : ∀ site ∈ sites, first ≤ site.start) (reached : first ≤ place)
    (filled : ∀ site ∈ sites, site.start < site.stop) :
    first + shortening sites place ≤ place := by
  induction sites with
  | nil => exact reached
  | cons site sites induction =>
      rw [List.pairwise_cons] at ordered
      rw [List.forall_mem_cons] at behind filled
      rw [isRead_cons ordered.1] at read
      have later := induction read.2 ordered.2 behind.2 filled.2
      rw [shortening_cons]
      split
      · rename_i starts
        have reach := read.1 starts
        omega
      · omega

/-- Where no call begins inside another, every place outside of all calls is read. -/
theorem isRead_iff_isOutside (apart : sites.Pairwise fun site other => site.stop ≤ other.start)
    (filled : ∀ site ∈ sites, site.start < site.stop) :
    IsRead sites place ↔ IsOutside sites place := by
  refine ⟨IsRead.isOutside, fun outside => ?_⟩
  induction sites with
  | nil => exact nofun
  | cons site sites induction =>
      rw [List.pairwise_cons] at apart
      rw [List.forall_mem_cons] at filled
      rw [IsOutside, List.forall_mem_cons] at outside
      have later := induction apart.2 filled.2 outside.2
      have ordered : sites.Pairwise fun site other => site.start < other.start :=
        apart.2.imp_of_mem fun inSites _ before =>
          Nat.lt_of_lt_of_le (filled.2 _ inSites) before
      refine (isRead_cons fun other member => ?_).mpr ⟨fun starts => ?_, later⟩
      · exact Nat.lt_of_lt_of_le filled.1 (apart.1 other member)
      · exact add_shortening_le later ordered apart.1 (outside.1 starts) filled.2

theorem getElem?_blankOut {text : List Char} (inside : site.start ≤ text.length) (index : Nat) :
    (blankOut text site)[index]? =
      if index < site.start then text[index]?
      else if index = site.start then some ' '
      else text[site.stop + (index - site.start - 1)]? := by
  have length : (text.take site.start).length = site.start := by
    rw [List.length_take]
    omega
  rw [blankOut, List.getElem?_append, length]
  split
  · rename_i before
    rw [List.getElem?_take_of_lt before]
  · split
    · rename_i same
      rw [same, Nat.sub_self]
      rfl
    · obtain ⟨more, isMore⟩ : ∃ more, index - site.start = more + 1 :=
        ⟨index - site.start - 1, by omega⟩
      rw [isMore, List.getElem?_cons_succ, List.getElem?_drop, Nat.add_sub_cancel]

theorem le_length_foldr {expression : List Char} {first : Nat} (inside : first ≤ expression.length)
    (behind : ∀ site ∈ sites, first ≤ site.start) :
    first ≤ (sites.foldr (fun site text => blankOut text site) expression).length := by
  induction sites with
  | nil => exact inside
  | cons site sites induction =>
      rw [List.forall_mem_cons] at behind
      have later := induction behind.2
      rw [List.foldr_cons, blankOut, List.length_append, List.length_take, List.length_cons]
      omega

theorem getElem?_foldr_iff {expression : List Char} (calls : AreCalls expression sites) {c : Char}
    (sign : c ≠ ' ') (index : Nat) :
    (sites.foldr (fun site text => blankOut text site) expression)[index]? = some c ↔
      ∃ place, expression[place]? = some c ∧ IsRead sites place ∧
        place = index + shortening sites place := by
  obtain ⟨ordered, filled, inside⟩ := calls
  induction sites generalizing index with
  | nil =>
      constructor
      · exact fun found => ⟨index, found, nofun, rfl⟩
      · rintro ⟨place, found, _, rfl⟩
        exact found
  | cons site sites induction =>
      rw [List.pairwise_cons] at ordered
      rw [List.forall_mem_cons] at filled inside
      have earlier : ∀ other ∈ sites, site.start ≤ other.start :=
        fun other member => Nat.le_of_lt (ordered.1 other member)
      have later (index : Nat) := induction index ordered.2 filled.2 inside.2
      rw [List.foldr_cons, getElem?_blankOut (le_length_foldr (Nat.le_of_lt inside.1) earlier)]
      simp only [isRead_cons ordered.1, shortening_cons]
      split
      · rw [later]
        constructor
        · rintro ⟨place, found, read, isPlace⟩
          have before : ¬site.start ≤ place := by
            intro reached
            have reach := add_shortening_le read ordered.2 earlier reached filled.2
            omega
          exact ⟨place, found, ⟨fun reached => absurd reached before, read⟩,
            by rw [if_neg before]; omega⟩
        · rintro ⟨place, found, ⟨reach, read⟩, isPlace⟩
          refine ⟨place, found, read, ?_⟩
          split at isPlace
          · rename_i reached
            have behind := reach reached
            omega
          · omega
      · split
        · constructor
          · rintro same
            exact absurd (Option.some.inj same).symm sign
          · rintro ⟨place, _, ⟨reach, _⟩, isPlace⟩
            have reached : site.start ≤ place := by omega
            have behind := reach reached
            rw [if_pos reached] at isPlace
            omega
        · rw [later]
          constructor
          · rintro ⟨place, found, read, isPlace⟩
            have reached : site.start ≤ place := by omega
            exact ⟨place, found, ⟨fun _ => by omega, read⟩, by rw [if_pos reached]; omega⟩
          · rintro ⟨place, found, ⟨reach, read⟩, isPlace⟩
            have reached : site.start ≤ place := by omega
            rw [if_pos reached] at isPlace
            exact ⟨place, found, read, by omega⟩

end

/-! ## Signs -/

section

variable {expression : List Char} {sites : List CallSite}

/-- Calls that begin one behind the other are blanked out in the reverse order. -/
theorem outsideCalls_eq_foldr
    (ordered : sites.Pairwise fun site other => site.start < other.start) :
    outsideCalls expression sites =
      sites.foldr (fun site text => blankOut text site) expression := by
  have distinct : (sites.map CallSite.start).Nodup :=
    List.pairwise_map.mpr (ordered.imp Nat.ne_of_lt)
  have sorted : (sites.mergeSort fun left right => right.start ≤ left.start).Pairwise
      fun left right => decide (right.start ≤ left.start) = true :=
    List.pairwise_mergeSort (by simp only [decide_eq_true_eq]; omega)
      (by simp only [Bool.or_eq_true, decide_eq_true_eq]; omega) sites
  have falling : sites.reverse.Pairwise
      fun left right => decide (right.start ≤ left.start) = true :=
    List.pairwise_reverse.mpr (ordered.imp fun before => decide_eq_true (Nat.le_of_lt before))
  have same : (sites.mergeSort fun left right => right.start ≤ left.start).Perm sites.reverse :=
    (List.mergeSort_perm _ _).trans (List.reverse_perm _).symm
  have reversed : (sites.mergeSort fun left right => right.start ≤ left.start) = sites.reverse := by
    refine same.eq_of_pairwise (fun left right inLeft inRight below above => ?_) sorted falling
    refine List.inj_on_of_nodup_map distinct (List.mem_mergeSort.mp inLeft)
      (List.mem_reverse.mp inRight) ?_
    exact Nat.le_antisymm (of_decide_eq_true above) (of_decide_eq_true below)
  rw [outsideCalls, reversed, List.foldl_reverse]

theorem mem_outsideCalls_iff (calls : AreCalls expression sites) {c : Char} (sign : c ≠ ' ') :
    c ∈ outsideCalls expression sites ↔
      ∃ place, expression[place]? = some c ∧ IsRead sites place := by
  rw [outsideCalls_eq_foldr calls.ordered, List.mem_iff_getElem?]
  simp only [getElem?_foldr_iff calls sign]
  constructor
  · rintro ⟨_, place, found, read, _⟩
    exact ⟨place, found, read⟩
  · rintro ⟨place, found, read⟩
    have reach := add_shortening_le read calls.ordered (fun _ _ => Nat.zero_le _)
      (Nat.zero_le place) calls.filled
    exact ⟨place - shortening sites place, place, found, read, by omega⟩

theorem mem_blanked_iff {c : Char} (sign : c ≠ ' ') :
    c ∈ blanked expression sites ↔
      ∃ place, expression[place]? = some c ∧ IsOutside sites place := by
  have covered (place : Nat) :
      (sites.any fun site => site.start ≤ place && place < site.stop) = false ↔
        IsOutside sites place := by
    simp [IsOutside]
  rw [blanked, List.mem_map]
  constructor
  · rintro ⟨⟨own, place⟩, member, shown⟩
    rw [List.mem_zipIdx_iff_getElem?] at member
    dsimp only at member shown
    split at shown
    · exact absurd shown.symm sign
    · rename_i outside
      subst shown
      exact ⟨place, member, (covered place).mp (Bool.not_eq_true _ ▸ outside)⟩
  · rintro ⟨place, found, outside⟩
    refine ⟨(c, place), List.mem_zipIdx_iff_getElem?.mpr found, ?_⟩
    exact if_neg (by rw [(covered place).mpr outside]; exact Bool.false_ne_true)

theorem mem_blanked_of_mem_outsideCalls (calls : AreCalls expression sites) {c : Char}
    (sign : c ≠ ' ') (left : c ∈ outsideCalls expression sites) : c ∈ blanked expression sites := by
  rcases (mem_outsideCalls_iff calls sign).mp left with ⟨place, found, read⟩
  exact (mem_blanked_iff sign).mpr ⟨place, found, read.isOutside⟩

theorem mem_outsideCalls_iff_mem_blanked (calls : AreCalls expression sites)
    (apart : sites.Pairwise fun site other => site.stop ≤ other.start) {c : Char} (sign : c ≠ ' ') :
    c ∈ outsideCalls expression sites ↔ c ∈ blanked expression sites := by
  simp only [mem_outsideCalls_iff calls sign, mem_blanked_iff sign,
    isRead_iff_isOutside apart calls.filled]

end

/-- The operation of an expression is the one that the text outside of its calls shows, just if the
sign that decides there is read: a plus sign, or a star where there is none. -/
theorem operation_iff (expression name : List Char) :
    let sites := findCalls expression name
    operation expression sites = combined (blanked expression sites) sites.length ↔
      ∀ sign, ['+', '*'].find? (blanked expression sites).contains = some sign →
        ∃ place, expression[place]? = some sign ∧ IsRead sites place := by
  intro sites
  have calls : AreCalls expression sites := areCalls_findCalls expression name
  have alike (single : sites.length ≤ 1) (c : Char) (sign : c ≠ ' ') :
      c ∈ outsideCalls expression sites ↔ c ∈ blanked expression sites := by
    refine mem_outsideCalls_iff_mem_blanked calls ?_ sign
    cases found : sites with
    | nil => exact List.Pairwise.nil
    | cons site others =>
        rw [found, List.length_cons] at single
        rw [List.eq_nil_of_length_eq_zero (Nat.le_zero.mp (Nat.le_of_succ_le_succ single))]
        exact List.pairwise_singleton _ _
  rw [operation_eq, combined_eq_iff
    (fun c sign left => mem_blanked_of_mem_outsideCalls calls sign left) alike]
  refine forall₂_congr fun sign decides => mem_outsideCalls_iff calls ?_
  rintro rfl
  exact absurd (List.mem_of_find?_eq_some decides) (by decide)

def countedOnce : List Char := "1 + f(f(n-1))".toList

def countedLast : List Char := "f(f(n-1)) + 1".toList

theorem operation_countedOnce : operation countedOnce (findCalls countedOnce "f".toList) =
    combined (blanked countedOnce (findCalls countedOnce "f".toList)) 2 := by
  refine (operation_iff countedOnce "f".toList).mpr fun sign decides => ?_
  have plus : ['+', '*'].find? (blanked countedOnce (findCalls countedOnce "f".toList)).contains =
      some '+' := by decide
  rw [plus] at decides
  cases decides
  exact ⟨2, rfl, by decide⟩

/-- The text behind nested calls can be lost, with the sign in it. -/
theorem exists_sign_swallowed :
    combined (blanked countedLast (findCalls countedLast "f".toList)) 2 = .add ∧
      operation countedLast (findCalls countedLast "f".toList) = .combine := by
  constructor
  · decide
  · rw [operation_eq, outsideCalls_eq_foldr (areCalls_findCalls countedLast "f".toList).ordered]
    decide

end Flowchart.Recursion
