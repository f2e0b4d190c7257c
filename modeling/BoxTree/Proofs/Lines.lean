import BoxTree.Decimal.Style
import Mathlib.Tactic

/-!
# Lines of text

Numbers are written without line breaks. Texts without line breaks that are each ended by one are read back as
the lines that they are.
-/

namespace BoxTree

def OneLine (text : String) : Prop := '\n' ∉ text.toList

instance (text : String) : Decidable (OneLine text) := inferInstanceAs (Decidable ('\n' ∉ text.toList))

def linesOf (text : String) : List String := ((text.toList.splitOn '\n').dropLast).map String.ofList

theorem linesOf_join {lines : List String} (plain : ∀ line ∈ lines, OneLine line) :
    linesOf (String.join (lines.map (· ++ "\n"))) = lines := by
  have pieces : (String.join (lines.map (· ++ "\n"))).toList.splitOn '\n' = lines.map String.toList ++ [[]] := by
    rw [String.toList_join, List.flatMap_map]
    induction lines with
    | nil => rfl
    | cons line rest ih =>
        rw [List.forall_mem_cons] at plain
        rw [List.flatMap_cons, String.toList_append, List.append_assoc]
        change List.splitOn '\n' (line.toList ++ '\n' :: _) = _
        rw [List.splitOn_append_cons_self_of_not_mem plain.1]
        exact congrArg (line.toList :: ·) (ih plain.2)
  rw [linesOf, pieces, List.dropLast_concat, List.map_map]
  exact List.map_id'' (fun line => String.ofList_toList) lines

namespace OneLine

variable {first second : String}

theorem append (plain : OneLine first) (plain' : OneLine second) : OneLine (first ++ second) := by
  rw [OneLine, String.toList_append, List.mem_append, not_or]
  exact ⟨plain, plain'⟩

theorem ofList {characters : List Char} (plain : '\n' ∉ characters) : OneLine (String.ofList characters) := by
  rwa [OneLine, String.toList_ofList]

theorem nat (n : Nat) : OneLine (toString n) := by
  change '\n' ∉ n.repr.toList
  rw [Nat.toList_repr]
  intro digit
  exact absurd (Nat.isDigit_of_mem_toDigits (by decide) (by decide) digit) (by decide)

theorem int (i : Int) : OneLine (toString i) := by
  cases i with
  | ofNat n => exact nat n
  | negSucc n => exact append (by decide) (nat (n + 1))

theorem intercalate {separator : String} {texts : List String} (plain : OneLine separator)
    (each : ∀ text ∈ texts, OneLine text) : OneLine (separator.intercalate texts) := by
  induction texts with
  | nil =>
      rw [String.intercalate_nil]
      decide
  | cons text rest ih =>
      rw [List.forall_mem_cons] at each
      by_cases last : rest = []
      · rw [last]
        exact each.1
      · rw [String.intercalate_cons_of_ne_nil last]
        exact (each.1.append plain).append (ih each.2)

end OneLine

namespace NumberStyle

variable {s : NumberStyle}

theorem oneLine_plain (wholeEnd : OneLine s.wholeEnd) (d : Decimal) : OneLine (s.plain d) := by
  have digits := OneLine.nat d.significand
  have zeros (n : Nat) : '\n' ∉ List.replicate n '0' := by
    intro zero
    cases List.eq_of_mem_replicate zero
  unfold plain
  dsimp only
  split
  · exact .append (.append digits (.ofList (zeros _))) wholeEnd
  · have padded (n : Nat) : '\n' ∉ List.replicate n '0' ++ (toString d.significand).toList := by
      rw [List.mem_append, not_or]
      exact ⟨zeros n, digits⟩
    exact .append (.append (.ofList fun taken => padded _ (List.mem_of_mem_take taken)) (by decide))
      (.ofList fun dropped => padded _ (List.mem_of_mem_drop dropped))

theorem oneLine_scientific (d : Decimal) : OneLine (scientific d) := by
  have digits := OneLine.nat d.significand
  unfold scientific
  refine .append (.append (.ofList ?_) (by decide)) (.int _)
  unfold OneLine at digits
  split
  · next first second rest shape =>
      rw [shape] at digits
      simp only [List.mem_cons, not_or] at digits ⊢
      exact ⟨digits.1, by decide, digits.2⟩
  · exact digits

theorem oneLine_text (wholeEnd : OneLine s.wholeEnd) (zero : OneLine s.zero) (infinite : OneLine s.infinite)
    (notANumber : OneLine s.notANumber) (x : Float32) : OneLine (s.text x) := by
  unfold text
  split
  · exact notANumber
  split
  · exact zero
  have magnitude : OneLine (if x.isInf then s.infinite else
      let d := Decimal.shortest x
      let leading := d.exponent + Decimal.digitCount d.significand - 1
      if s.leastPlain ≤ leading ∧ leading ≤ s.mostPlain then s.plain d else scientific d) := by
    split
    · exact infinite
    · dsimp only
      split
      · exact oneLine_plain wholeEnd _
      · exact oneLine_scientific _
  dsimp only
  split
  · exact .append (by decide) magnitude
  · exact magnitude

end NumberStyle

/-! ## Numbers in a line -/

def digitRuns (characters : List Char) : List (List Char) :=
  (characters.splitOnP (!·.isDigit)).filter (!·.isEmpty)

def numbersIn (text : String) : List Nat := (digitRuns text.toList).map (Nat.ofDigitChars 10 · 0)

def NoDigits (text : String) : Prop := ∀ c ∈ text.toList, c.isDigit = false

-- Not the instance that looks at all characters there are.
instance (text : String) : Decidable (NoDigits text) := List.decidableBAll _ text.toList

theorem digitRuns_cons {digits rest : List Char} {c : Char} (all : ∀ d ∈ digits, d.isDigit = true)
    (other : c.isDigit = false) :
    digitRuns (digits ++ c :: rest) = [digits].filter (!·.isEmpty) ++ digitRuns rest := by
  have run : ∀ d ∈ digits, (!d.isDigit) = false := fun d member => by rw [all d member]; rfl
  rw [digitRuns, List.splitOnP_append_cons_of_forall_mem run c (by rw [other]; rfl), ← List.singleton_append,
    List.filter_append]
  rfl

theorem digitRuns_append {first : List Char} (plain : ∀ c ∈ first, c.isDigit = false) (second : List Char) :
    digitRuns (first ++ second) = digitRuns second := by
  induction first with
  | nil => rfl
  | cons c first ih =>
      rw [List.forall_mem_cons] at plain
      have skipped := @digitRuns_cons [] (first ++ second) c nofun plain.1
      exact skipped.trans (ih plain.2)

theorem numbersIn_append {first : String} (plain : NoDigits first) (second : String) :
    numbersIn (first ++ second) = numbersIn second := by
  rw [numbersIn, String.toList_append, digitRuns_append plain, numbersIn]

theorem numbersIn_nat (n : Nat) {mark : String} (plain : NoDigits mark) (ends : mark.toList ≠ [])
    (rest : String) : numbersIn (toString n ++ (mark ++ rest)) = n :: numbersIn rest := by
  have digits : ∀ d ∈ Nat.toDigits 10 n, d.isDigit = true :=
    fun d member => Nat.isDigit_of_mem_toDigits (by decide) (by decide) member
  have shown : (toString n).toList = Nat.toDigits 10 n := Nat.toList_repr
  unfold NoDigits at plain
  rw [numbersIn, String.toList_append, String.toList_append, shown]
  obtain ⟨c, others, same⟩ := List.exists_cons_of_ne_nil ends
  rw [same, List.forall_mem_cons] at plain
  rw [same, List.cons_append, digitRuns_cons digits plain.1, digitRuns_append plain.2]
  simp [Nat.toDigits_ne_nil, Nat.ofDigitChars_ten_toDigits, numbersIn]

theorem numbersIn_intercalate (ns : List Nat) (rest : String) :
    numbersIn (String.intercalate ", " (ns.map toString) ++ ("]" ++ rest)) = ns ++ numbersIn rest := by
  have closed := numbersIn_append (show NoDigits "]" by decide) rest
  induction ns with
  | nil =>
      rw [List.map_nil, String.intercalate_nil, String.empty_append, closed]
      rfl
  | cons n ns ih =>
      rw [List.map_cons]
      by_cases last : ns = []
      · subst last
        exact numbersIn_nat n (show NoDigits "]" by decide) (by decide) rest
      · have next := numbersIn_nat n (show NoDigits ", " by decide) (by decide)
          (String.intercalate ", " (ns.map toString) ++ ("]" ++ rest))
        rw [String.intercalate_cons_of_ne_nil (List.map_eq_nil_iff.not.2 last), String.append_assoc,
          String.append_assoc, next, ih]
        rfl

end BoxTree
