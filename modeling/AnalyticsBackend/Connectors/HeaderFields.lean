import Mathlib.Data.List.Count
import Mathlib.Data.List.GetD
import AnalyticsBackend.Connectors.Worksheet
import AnalyticsBackend.Lib.JsOrder

/-!
# A worksheet row keeps its cells

When the columns of a worksheet have names of their own, and when a record holds each cell of its row.
-/

namespace AnalyticsBackend.Connectors.Worksheet
open Lib

variable {string : Js → String}

/-! ## Numbered names -/

theorem toList_numbered {text : String} {count : Nat} (repeated : 0 < count) :
    (numbered text count).toList = text.toList ++ '_' :: Nat.toDigits 10 (count + 1) := by
  rw [numbered, if_pos repeated]
  simp [ToString.toString, Nat.toList_repr]

theorem numbered_zero (text : String) : numbered text 0 = text := rfl

theorem underscore_notMem_toDigits (n : Nat) : '_' ∉ Nat.toDigits 10 n := fun underscore =>
  absurd (Nat.isDigit_of_mem_toDigits (by decide) (by decide) underscore) (by decide)

theorem numbered_inj {text text' : String} {count count' : Nat} (repeated : 0 < count)
    (repeated' : 0 < count') (same : numbered text count = numbered text' count') :
    text = text' ∧ count = count' := by
  have chars := congrArg (fun s => s.toList.reverse) same
  simp only [toList_numbered repeated, toList_numbered repeated', List.reverse_append,
    List.reverse_cons, List.append_assoc, List.singleton_append] at chars
  have split (n : Nat) : '_' ∉ (Nat.toDigits 10 n).reverse := fun mem =>
    underscore_notMem_toDigits n (List.mem_reverse.mp mem)
  have parts := congrArg (splitChars '_') chars
  rw [splitChars_append (split _), splitChars_append (split _)] at parts
  have digits := List.reverse_injective (List.cons.inj parts).1
  have counts : count + 1 = count' + 1 := by
    rw [← Nat.ofDigitChars_ten_toDigits (n := count + 1), digits, Nat.ofDigitChars_ten_toDigits]
  rw [digits] at chars
  have texts := (List.cons.inj (List.append_cancel_left chars)).2
  exact ⟨String.toList_injective (List.reverse_injective texts), Nat.succ.inj counts⟩

theorem numbered_ne {text : String} {count : Nat} (repeated : 0 < count) : numbered text count ≠ text := by
  intro same
  have chars := congrArg (fun s => s.toList.length) same
  simp [toList_numbered repeated] at chars

/-! ## The names of the columns -/

def headerTextsFrom (string : Js → String) (i : Nat) : List (Option Js) → List (Option String)
  | [] => []
  | v :: rest => v.map (headerText string i) :: headerTextsFrom string (i + 1) rest

def headerTexts (string : Js → String) (values : List (Option Js)) : List (Option String) :=
  headerTextsFrom string 0 values

/-- The columns with a text of their own, as often as it came up before. -/
def numberAll : List (Option String) → List (Option String) → List (Option String)
  | _, [] => []
  | past, text :: rest =>
      text.map (fun t => numbered t (past.count (some t))) :: numberAll (past ++ [text]) rest

theorem headerFieldsFrom_eq {seen : CountMap String} {past : List (Option String)}
    (counted : ∀ t, (seen.lookup t).getD 0 = past.count (some t)) (i : Nat) (values : List (Option Js)) :
    headerFieldsFrom string seen i values = numberAll past (headerTextsFrom string i values) := by
  induction values generalizing seen past i with
  | nil => rfl
  | cons v rest ih =>
      cases v with
      | none =>
          rw [headerFieldsFrom, headerTextsFrom, numberAll, ih]
          · rfl
          · intro t
            rw [counted, List.count_append]
            simp
      | some v =>
          rw [headerFieldsFrom, headerTextsFrom, numberAll, @ih _ (past ++ [some (headerText string i v)])]
          · rw [counted]
            rfl
          · intro t
            rw [List.count_append, CountMap.increment]
            by_cases same : t = headerText string i v
            · subst same
              simp [counted]
            · rw [AList.lookup_insert_ne same, counted]
              simp [Ne.symm same]

theorem numberAll_getElem? (past texts : List (Option String)) (i : Nat) :
    (numberAll past texts)[i]? = texts[i]?.map fun text =>
      text.map fun t => numbered t ((past ++ texts.take i).count (some t)) := by
  induction texts generalizing past i with
  | nil => rfl
  | cons text rest ih =>
      cases i with
      | zero => simp [numberAll]
      | succ i => simp [numberAll, ih]

/-- The name of a column, by the texts of the header: `col_` and its place where there is none. -/
def columnName (texts : List (Option String)) (i : Nat) : String :=
  match texts[i]?.join with
  | none => columnField i
  | some t => numbered t ((texts.take i).count (some t))

theorem headerFields_eq (values : List (Option Js)) :
    headerFields string values = numberAll [] (headerTexts string values) :=
  headerFieldsFrom_eq (fun t => by simp) 0 values

theorem fieldName_headerFields (values : List (Option Js)) (i : Nat) :
    fieldName (headerFields string values) i = columnName (headerTexts string values) i := by
  rw [fieldName, columnName, headerFields_eq, numberAll_getElem?]
  cases (headerTexts string values)[i]? with
  | none => rfl
  | some text =>
      cases text with
      | none => rfl
      | some t => rfl

/-! ## Distinct names -/

/-- No two columns have the same name. -/
def Distinct (fields : List (Option String)) : Prop :=
  ∀ (i j : Nat) (name : String), fields[i]? = some (some name) → fields[j]? = some (some name) → i = j

theorem count_take_lt {texts : List (Option String)} {text : Option String} {i j : Nat}
    (here : texts[i]? = some text) (before : i < j) :
    (texts.take i).count text < (texts.take j).count text := by
  have sub : ((texts.take i) ++ [text]).Sublist (texts.take j) := by
    have grown : texts.take (i + 1) = texts.take i ++ [text] := by
      rw [List.take_add_one, here]
      rfl
    rw [← grown]
    exact (List.take_sublist_take_left (by omega))
  have more := sub.count_le text
  rw [List.count_append, List.count_singleton_self] at more
  omega

theorem eq_of_count_take {texts : List (Option String)} {text : Option String} {i j : Nat}
    (here : texts[i]? = some text) (there : texts[j]? = some text)
    (same : (texts.take i).count text = (texts.take j).count text) : i = j := by
  rcases Nat.lt_trichotomy i j with before | is | after
  · exact absurd same (Nat.ne_of_lt (count_take_lt here before))
  · exact is
  · exact absurd same (Nat.ne_of_gt (count_take_lt there after))

/-- No text is another one with its number behind it. -/
def Unnumbered (texts : List (Option String)) : Prop :=
  ∀ (i : Nat) (t : String), texts[i]? = some (some t) → 0 < (texts.take i).count (some t) →
    some (numbered t ((texts.take i).count (some t))) ∉ texts

theorem exists_first {texts : List (Option String)} {text : Option String} (mem : text ∈ texts) :
    ∃ i, texts[i]? = some text ∧ (texts.take i).count text = 0 := by
  obtain ⟨before, after, is, new⟩ := List.eq_append_cons_of_mem mem
  refine ⟨before.length, ?_, ?_⟩
  · rw [is, List.getElem?_append_right (le_refl _), Nat.sub_self]
    rfl
  · rw [is, List.take_left]
    exact List.count_eq_zero.mpr new

theorem distinct_iff (texts : List (Option String)) : Distinct (numberAll [] texts) ↔ Unnumbered texts := by
  have named {i : Nat} {name : String} : (numberAll [] texts)[i]? = some (some name) ↔
      ∃ t, texts[i]? = some (some t) ∧ numbered t ((texts.take i).count (some t)) = name := by
    rw [numberAll_getElem?, List.nil_append]
    simp only [Option.map_eq_some_iff]
    constructor
    · rintro ⟨text, here, t, rfl, is⟩
      exact ⟨t, here, is⟩
    · rintro ⟨t, here, is⟩
      exact ⟨some t, here, t, rfl, is⟩
  constructor
  · intro distinct i t here repeated mem
    obtain ⟨j, there, first⟩ := exists_first mem
    have same := distinct i j _ (named.mpr ⟨t, here, rfl⟩)
      (named.mpr ⟨_, there, by rw [first, numbered_zero]⟩)
    rw [← same, here] at there
    exact numbered_ne repeated (Option.some.inj (Option.some.inj there)).symm
  · intro unnumbered i j name isI isJ
    obtain ⟨t, here, nameI⟩ := named.mp isI
    obtain ⟨t', there, nameJ⟩ := named.mp isJ
    have same := nameI.trans nameJ.symm
    rcases Nat.eq_zero_or_pos ((texts.take i).count (some t)) with first | repeated
    · rcases Nat.eq_zero_or_pos ((texts.take j).count (some t')) with first' | repeated'
      · rw [first, first', numbered_zero, numbered_zero] at same
        subst same
        exact eq_of_count_take here there (first.trans first'.symm)
      · rw [first, numbered_zero] at same
        exact absurd (same ▸ List.mem_of_getElem? here) (unnumbered j t' there repeated')
    · rcases Nat.eq_zero_or_pos ((texts.take j).count (some t')) with first' | repeated'
      · rw [first', numbered_zero] at same
        exact absurd (same ▸ List.mem_of_getElem? there) (unnumbered i t here repeated)
      · obtain ⟨rfl, counts⟩ := numbered_inj repeated repeated' same
        exact eq_of_count_take here there counts

/-! ## Records -/

/-- A cell that is neither `null` nor an empty text. -/
def Filled (string : Js → String) (values : List (Option Js)) (i : Nat) : Prop :=
  (cellAt string values i).isBlank = false

def KeepsCells (string : Js → String) (fields : List (Option String)) (values : List (Option Js)) : Prop :=
  ∀ i, Filled string values i →
    (toRecord string fields values).lookup (fieldName fields i) = some (cellAt string values i) ∧
      ∀ j, Filled string values j → fieldName fields j = fieldName fields i → j = i

section
variable {fields : List (Option String)} {values : List (Option Js)}

theorem lookup_assignField (record : List (String × Js)) (field name : String) (v : Js) :
    (assignField record field v).lookup name =
      if name = field ∧ field ≠ "__proto__" then some v else record.lookup name := by
  unfold assignField
  split
  · rename_i special
    rw [if_neg fun is => is.2 special]
  · rename_i plain
    rw [JsObject.lookup_set]
    simp only [ne_eq, plain, not_false_eq_true, and_true]

theorem lookup_toRecordUpTo {name : String} {i width : Nat} (plain : name ≠ "__proto__")
    (named : fieldName fields i = name) (within : i < width)
    (last : ∀ j, i < j → j < width → fieldName fields j ≠ name) :
    (toRecordUpTo string fields values width).lookup name = some (cellAt string values i) := by
  induction width with
  | zero => exact absurd within (Nat.not_lt_zero i)
  | succ width ih =>
      rw [toRecordUpTo, lookup_assignField]
      by_cases here : i = width
      · subst here
        rw [if_pos ⟨named.symm, named ▸ plain⟩]
      · rw [if_neg fun is => last width (by omega) (by omega) is.1.symm]
        exact ih (by omega) fun j after before => last j after (by omega)

theorem lookup_proto (width : Nat) : (toRecordUpTo string fields values width).lookup "__proto__" = none := by
  induction width with
  | zero => rfl
  | succ width ih =>
      rw [toRecordUpTo, lookup_assignField, if_neg fun is => is.2 is.1.symm, ih]

theorem filled_lt {i : Nat} (filled : Filled string values i) : i < values.length := by
  by_contra past
  have none : values[i]? = none := List.getElem?_eq_none_iff.mpr (Nat.le_of_not_lt past)
  unfold Filled cellAt at filled
  rw [none] at filled
  have blank : (toPrimitive string Js.undefined).isBlank = true := by
    rw [toPrimitive]
    rfl
  exact absurd filled (ne_of_eq_of_ne blank (by decide))

theorem exists_last {name : String} {i width : Nat} (named : fieldName fields i = name) (within : i < width) :
    ∃ m, i ≤ m ∧ m < width ∧ fieldName fields m = name ∧
      ∀ j, m < j → j < width → fieldName fields j ≠ name := by
  induction width with
  | zero => exact absurd within (Nat.not_lt_zero i)
  | succ width ih =>
      by_cases same : fieldName fields width = name
      · exact ⟨width, by omega, by omega, same, fun j after before => by omega⟩
      · have before : i < width := by
          by_contra late
          have is : i = width := by omega
          exact same (is ▸ named)
        obtain ⟨m, least, less, is, last⟩ := ih before
        refine ⟨m, least, by omega, is, fun j after before' => ?_⟩
        rcases Nat.lt_or_ge j width with inside | outside
        · exact last j after inside
        · rw [show j = width by omega]
          exact same

/-- A record keeps the cells of its row iff no filled one stands in the column `__proto__` or shares its
name with a later column or another filled one. -/
theorem keepsCells_iff : KeepsCells string fields values ↔
    ∀ i, Filled string values i → fieldName fields i ≠ "__proto__" ∧
      ∀ j < max fields.length values.length, fieldName fields j = fieldName fields i → j ≠ i →
        j < i ∧ ¬Filled string values j := by
  constructor
  · intro keeps i filled
    obtain ⟨held, own⟩ := keeps i filled
    have plain : fieldName fields i ≠ "__proto__" := by
      intro special
      rw [special, toRecord, lookup_proto] at held
      exact nomatch held
    refine ⟨plain, fun j within same other => ?_⟩
    refine ⟨?_, fun filled' => other (own j filled' same)⟩
    by_contra late
    -- the last column of the name has the cell, which is filled then, and the field is not its own
    obtain ⟨m, least, less, named, last⟩ := exists_last same within
    rw [toRecord, lookup_toRecordUpTo plain named less last] at held
    have filled' : Filled string values m := by
      unfold Filled
      rw [Option.some.inj held]
      exact filled
    have is := own m filled' named
    omega
  · intro apart i filled
    obtain ⟨plain, alone⟩ := apart i filled
    have inside := filled_lt filled
    constructor
    · refine lookup_toRecordUpTo plain rfl (by omega) fun j after before same => ?_
      have earlier := (alone j before same (by omega)).1
      omega
    · intro j filled' same
      by_contra other
      have inside' := filled_lt filled'
      exact (alone j (by omega) same other).2 filled'

end

/-- The names of the columns are distinct, and the record of a row keeps its cells. -/
def KeepsRow (string : Js → String) (header values : List (Option Js)) : Prop :=
  Distinct (headerFields string header) ∧ KeepsCells string (headerFields string header) values

/-- No filled cell stands in the column `__proto__`, or shares the name of its column with a later column
or another filled cell. -/
def OwnColumns (string : Js → String) (header values : List (Option Js)) : Prop :=
  ∀ i, Filled string values i → columnName (headerTexts string header) i ≠ "__proto__" ∧
    ∀ j < max header.length values.length,
      columnName (headerTexts string header) j = columnName (headerTexts string header) i → j ≠ i →
        j < i ∧ ¬Filled string values j

theorem length_numberAll (past texts : List (Option String)) : (numberAll past texts).length = texts.length := by
  induction texts generalizing past with
  | nil => rfl
  | cons text rest ih => rw [numberAll, List.length_cons, List.length_cons, ih]

theorem length_headerTextsFrom (i : Nat) (values : List (Option Js)) :
    (headerTextsFrom string i values).length = values.length := by
  induction values generalizing i with
  | nil => rfl
  | cons v rest ih => rw [headerTextsFrom, List.length_cons, List.length_cons, ih]

/-- **A worksheet row.** Every cell keeps a field of its own iff no header is another one that is repeated
with a number behind it, and no filled cell shares its column's name. -/
theorem keepsRow_iff (string : Js → String) (header values : List (Option Js)) :
    KeepsRow string header values ↔
      Unnumbered (headerTexts string header) ∧ OwnColumns string header values := by
  have size : (headerFields string header).length = header.length := by
    rw [headerFields_eq, length_numberAll, headerTexts, length_headerTextsFrom]
  have distinct : Distinct (headerFields string header) ↔ Unnumbered (headerTexts string header) := by
    rw [headerFields_eq, distinct_iff]
  unfold KeepsRow OwnColumns
  rw [distinct, keepsCells_iff, size]
  simp only [fieldName_headerFields]

/-- A header that is the name that another one is given where it is repeated. -/
theorem repeated_header_clashes :
    ¬KeepsRow (fun _ => "") [some (.str "A"), some (.str "A"), some (.str "A_2")]
      [some (.str "x"), some (.str "y"), some (.str "z")] := by
  rintro ⟨distinct, -⟩
  have same := distinct 1 2 "A_2" (by decide +kernel) (by decide +kernel)
  exact absurd same (by decide)

end AnalyticsBackend.Connectors.Worksheet
