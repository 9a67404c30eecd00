import Mathlib.Data.List.Basic
import Mathlib.Tactic.IntervalCases

/-!
# JSON texts

`JSON.stringify` of JSON data. A text is read in one way only: the value that a text begins with, and
what follows it, are determined by the text. So data with the same text are the same data.
-/

namespace AnalyticsBackend.Lib

/-- The characters of numbers. -/
def isNumberChar (c : Char) : Bool := c.isDigit || c = '-' || c = '+' || c = '.' || c = 'e'

/-- `Number::toString` of finite numbers: the text of a number reads back as that number. -/
structure NumberFormat where
  text : ℚ → List Char
  injective : Function.Injective text
  chars : ∀ q, ∀ c ∈ text q, isNumberChar c = true
  some : ∀ q, text q ≠ []

/-- JSON data. -/
inductive Json where
  | null
  | bool (b : Bool)
  | num (q : ℚ)
  | str (s : String)
  | arr (items : List Json)
  | obj (fields : List (String × Json))

namespace Json

/-! ## Strings -/

def hexDigit (n : Nat) : Char := "0123456789abcdef".toList.getD n '0'

/-- A character in a string: quotes, backslashes and control characters are escaped. -/
def escape (c : Char) : List Char :=
  if c.toNat = 0x22 then ['\\', c]
  else if c = '\\' then ['\\', c]
  else if c.toNat = 0x8 then ['\\', 'b']
  else if c.toNat = 0x9 then ['\\', 't']
  else if c.toNat = 0xA then ['\\', 'n']
  else if c.toNat = 0xC then ['\\', 'f']
  else if c.toNat = 0xD then ['\\', 'r']
  else if c.toNat < 0x20 then ['\\', 'u', '0', '0', hexDigit (c.toNat / 16), hexDigit (c.toNat % 16)]
  else [c]

/-- The quotation mark. -/
def mark : Char := Char.ofNat 0x22

def quote (s : String) : List Char := mark :: s.toList.flatMap escape ++ [mark]

/-- The character that an escape stands for. -/
def unescaped : Char → Char
  | 'b' => Char.ofNat 0x8
  | 't' => Char.ofNat 0x9
  | 'n' => Char.ofNat 0xA
  | 'f' => Char.ofNat 0xC
  | 'r' => Char.ofNat 0xD
  | c => c

def hexValue (c : Char) : Nat := "0123456789abcdef".toList.idxOf c

/-- The character that a text begins with, and the rest. -/
def readChar : List Char → Option (Char × List Char)
  | '\\' :: 'u' :: '0' :: '0' :: high :: low :: rest =>
      some (Char.ofNat (16 * hexValue high + hexValue low), rest)
  | '\\' :: c :: rest => some (unescaped c, rest)
  | c :: rest => some (c, rest)
  | [] => none

theorem readChar_escape (c : Char) (rest : List Char) :
    readChar (escape c ++ rest) = some (c, rest) := by
  have control : ∀ n < 0x23, readChar (escape (Char.ofNat n) ++ rest) = some (Char.ofNat n, rest) := by
    intro n small
    interval_cases n <;> rfl
  by_cases small : c.toNat < 0x23
  · have reads := control c.toNat small
    rwa [Char.ofNat_toNat] at reads
  · by_cases slash : c = '\\'
    · rw [slash]
      rfl
    · have plain : escape c = [c] := by
        unfold escape
        grind
      rw [plain, List.singleton_append]
      unfold readChar
      split
      · next is => exact absurd (List.cons.inj is).1 slash
      · next is => exact absurd (List.cons.inj is).1 slash
      · next is => rw [(List.cons.inj is).1, (List.cons.inj is).2]
      · next is => exact absurd is nofun

/-- No escape begins with a quotation mark. -/
theorem escape_ne_mark (c : Char) (s t : List Char) : escape c ++ s ≠ mark :: t := by
  intro same
  have reads := readChar_escape c s
  have plain : readChar (mark :: t) = some (mark, t) := rfl
  rw [same, plain] at reads
  have is : c = mark := (Prod.mk.inj (Option.some.inj reads)).1.symm
  rw [is] at same
  exact absurd (List.cons.inj same).1 (by decide)

theorem escaped_inj {s t : List Char} {x y : List Char}
    (same : s.flatMap escape ++ mark :: x = t.flatMap escape ++ mark :: y) : s = t ∧ x = y := by
  induction s generalizing t with
  | nil =>
      cases t with
      | nil => exact ⟨rfl, (List.cons.inj same).2⟩
      | cons c t =>
          rw [List.flatMap_cons, List.append_assoc] at same
          exact absurd same.symm (escape_ne_mark c _ _)
  | cons c s ih =>
      cases t with
      | nil =>
          rw [List.flatMap_cons, List.append_assoc] at same
          exact absurd same (escape_ne_mark c _ _)
      | cons d t =>
          rw [List.flatMap_cons, List.flatMap_cons, List.append_assoc, List.append_assoc] at same
          have reads := readChar_escape c (s.flatMap escape ++ mark :: x)
          rw [same, readChar_escape] at reads
          obtain ⟨first, rest⟩ := Prod.mk.inj (Option.some.inj reads)
          obtain ⟨tail, after⟩ := ih rest.symm
          exact ⟨by rw [first, tail], after⟩

theorem quote_inj {s t : String} {x y : List Char} (same : quote s ++ x = quote t ++ y) :
    s = t ∧ x = y := by
  simp only [quote, List.cons_append, List.append_assoc, List.nil_append, List.cons.injEq,
    true_and] at same
  obtain ⟨chars, rest⟩ := escaped_inj same
  exact ⟨String.toList_injective chars, rest⟩

/-! ## Texts -/

mutual

def render (fmt : NumberFormat) : Json → List Char
  | .null => "null".toList
  | .bool b => if b then "true".toList else "false".toList
  | .num q => fmt.text q
  | .str s => quote s
  | .arr items => '[' :: [','].intercalate (renderItems fmt items) ++ [']']
  | .obj fields => '{' :: [','].intercalate (renderFields fmt fields) ++ ['}']

def renderItems (fmt : NumberFormat) : List Json → List (List Char)
  | [] => []
  | v :: rest => render fmt v :: renderItems fmt rest

def renderFields (fmt : NumberFormat) : List (String × Json) → List (List Char)
  | [] => []
  | (key, v) :: rest => (quote key ++ ':' :: render fmt v) :: renderFields fmt rest

end

/-- What follows a number does not go on with it. -/
def Closed (s : List Char) : Prop := ∀ c ∈ s.head?, isNumberChar c = false

theorem closed_cons {c : Char} (stops : isNumberChar c = false) (s : List Char) : Closed (c :: s) := by
  rintro _ ⟨⟩
  exact stops

/-- A thing is known by a text that begins with its text. -/
def Readable {A : Type} (text : A → List Char) (a : A) : Prop :=
  ∀ b s t, Closed s → Closed t → text a ++ s = text b ++ t → a = b ∧ s = t

theorem takeWhile_number {ds s : List Char} (digits : ∀ c ∈ ds, isNumberChar c = true)
    (closed : Closed s) : (ds ++ s).takeWhile isNumberChar = ds := by
  rw [List.takeWhile_append_of_pos digits]
  cases s with
  | nil => exact List.append_nil _
  | cons c s => rw [List.takeWhile_cons_of_neg (by simp [closed c rfl]), List.append_nil]

theorem readable_number (fmt : NumberFormat) (q : ℚ) : Readable fmt.text q := by
  intro q' s t closed closed' same
  have digits := takeWhile_number (fmt.chars q) closed
  rw [same, takeWhile_number (fmt.chars q') closed'] at digits
  rw [digits] at same
  exact ⟨fmt.injective digits.symm, List.append_cancel_left same⟩

/-- Texts with commas between, up to a closing bracket. -/
theorem readable_list {A : Type} {text : A → List Char} {close : Char}
    (stops : isNumberChar close = false) (comma : close ≠ ',')
    (start : ∀ a s t, text a ++ s ≠ close :: t) {as : List A} (readable : ∀ a ∈ as, Readable text a)
    {bs : List A} {s t : List Char}
    (same : [','].intercalate (as.map text) ++ close :: s =
      [','].intercalate (bs.map text) ++ close :: t) : as = bs ∧ s = t := by
  -- what follows the first text
  have unfolded (a : A) (rest : List A) (u : List Char) : ∃ after,
      [','].intercalate ((a :: rest).map text) ++ close :: u = text a ++ after ∧ Closed after ∧
        (rest = [] → after = close :: u) ∧ (rest ≠ [] →
          after = ',' :: ([','].intercalate (rest.map text) ++ close :: u)) := by
    cases rest with
    | nil =>
        exact ⟨close :: u, by simp [List.intercalate], closed_cons stops u, fun _ => rfl,
          fun some => absurd rfl some⟩
    | cons b rest =>
        refine ⟨_, ?_, closed_cons (by decide) _, nofun, fun _ => rfl⟩
        simp [List.intercalate]
  induction as generalizing bs with
  | nil =>
      cases bs with
      | nil => exact ⟨rfl, (List.cons.inj same).2⟩
      | cons b bs =>
          obtain ⟨after, is, -⟩ := unfolded b bs t
          rw [is] at same
          exact absurd same.symm (start b _ _)
  | cons a as ih =>
      obtain ⟨after, is, closed, last, more⟩ := unfolded a as s
      rw [is] at same
      cases bs with
      | nil => exact absurd same (start a _ _)
      | cons b bs =>
          obtain ⟨after', is', closed', last', more'⟩ := unfolded b bs t
          rw [is'] at same
          obtain ⟨first, rest⟩ := readable a (List.mem_cons_self ..) b _ _ closed closed' same
          subst first
          cases as with
          | nil =>
              cases bs with
              | nil =>
                  rw [last rfl, last' rfl] at rest
                  exact ⟨rfl, (List.cons.inj rest).2⟩
              | cons b' bs =>
                  rw [last rfl, more' (List.cons_ne_nil _ _)] at rest
                  exact absurd (List.cons.inj rest).1 comma
          | cons a' as =>
              rw [more (List.cons_ne_nil _ _)] at rest
              cases bs with
              | nil =>
                  rw [last' rfl] at rest
                  exact absurd (List.cons.inj rest).1.symm comma
              | cons b' bs =>
                  rw [more' (List.cons_ne_nil _ _)] at rest
                  obtain ⟨same', end'⟩ := ih (fun a mem => readable a (List.mem_cons_of_mem _ mem))
                    (List.cons.inj rest).2
                  exact ⟨by rw [same'], end'⟩

/-! ## One reading -/

/-- What a value is, apart from its content. -/
def kind : Json → Nat
  | .null => 0
  | .bool true => 1
  | .bool false => 2
  | .num _ => 3
  | .str _ => 4
  | .arr _ => 5
  | .obj _ => 6

/-- What the first character of a text says of the value. -/
def kindOf (c : Char) : Nat :=
  if c = 'n' then 0
  else if c = 't' then 1
  else if c = 'f' then 2
  else if isNumberChar c then 3
  else if c = mark then 4
  else if c = '[' then 5
  else if c = '{' then 6
  else 7

theorem render_head (fmt : NumberFormat) (v : Json) :
    ∃ c rest, render fmt v = c :: rest ∧ kindOf c = v.kind := by
  cases v with
  | null => exact ⟨'n', _, rfl, rfl⟩
  | bool b =>
      cases b with
      | true => exact ⟨'t', _, rfl, rfl⟩
      | false => exact ⟨'f', _, rfl, rfl⟩
  | num q =>
      cases text : fmt.text q with
      | nil => exact absurd text (fmt.some q)
      | cons c rest =>
          have digit := fmt.chars q c (by rw [text]; exact List.mem_cons_self ..)
          refine ⟨c, rest, by rw [render, text], ?_⟩
          have other : c ≠ 'n' ∧ c ≠ 't' ∧ c ≠ 'f' := by
            refine ⟨?_, ?_, ?_⟩ <;> rintro rfl <;> exact absurd digit (by decide)
          simp [kindOf, kind, other, digit]
  | str s => exact ⟨mark, _, rfl, rfl⟩
  | arr items => exact ⟨'[', _, rfl, rfl⟩
  | obj fields => exact ⟨'{', _, rfl, rfl⟩

theorem kind_eq {fmt : NumberFormat} {v w : Json} {s t : List Char}
    (same : render fmt v ++ s = render fmt w ++ t) : v.kind = w.kind := by
  obtain ⟨c, rest, head, is⟩ := render_head fmt v
  obtain ⟨c', rest', head', is'⟩ := render_head fmt w
  rw [head, head'] at same
  rw [← is, ← is', (List.cons.inj same).1]

theorem render_ne_close (fmt : NumberFormat) {close : Char} (stops : kindOf close = 7) (v : Json)
    (s t : List Char) : render fmt v ++ s ≠ close :: t := by
  intro same
  obtain ⟨c, rest, head, is⟩ := render_head fmt v
  rw [head] at same
  rw [(List.cons.inj same).1, stops] at is
  rcases v with _ | (_ | _) | _ | _ | _ | _ <;> simp only [kind] at is <;> omega

/-- The text of a field. -/
def renderField (fmt : NumberFormat) (field : String × Json) : List Char :=
  quote field.1 ++ ':' :: render fmt field.2

theorem renderItems_eq (fmt : NumberFormat) (items : List Json) :
    renderItems fmt items = items.map (render fmt) := by
  induction items with
  | nil => rfl
  | cons v rest ih => rw [renderItems, ih, List.map_cons]

theorem renderFields_eq (fmt : NumberFormat) (fields : List (String × Json)) :
    renderFields fmt fields = fields.map (renderField fmt) := by
  induction fields with
  | nil => rfl
  | cons field rest ih => rw [renderFields, ih, List.map_cons, renderField]

theorem readable_field {fmt : NumberFormat} {field : String × Json}
    (readable : Readable (render fmt) field.2) : Readable (renderField fmt) field := by
  intro field' s t closed closed' same
  simp only [renderField, List.append_assoc, List.cons_append] at same
  obtain ⟨key, rest⟩ := quote_inj same
  obtain ⟨value, after⟩ := readable _ s t closed closed' (List.cons.inj rest).2
  exact ⟨Prod.ext key value, after⟩

mutual

/-- What a text begins with is of the same kind, and then the same. -/
theorem readable (fmt : NumberFormat) : (v : Json) → Readable (render fmt) v
  | .null, w, s, t, _, _, same => by
      have is := kind_eq same
      rcases w with _ | (_ | _) | _ | _ | _ | _ <;> simp only [kind] at is <;> try omega
      exact ⟨rfl, List.append_cancel_left same⟩
  | .bool true, w, s, t, _, _, same => by
      have is := kind_eq same
      rcases w with _ | (_ | _) | _ | _ | _ | _ <;> simp only [kind] at is <;> try omega
      exact ⟨rfl, List.append_cancel_left same⟩
  | .bool false, w, s, t, _, _, same => by
      have is := kind_eq same
      rcases w with _ | (_ | _) | _ | _ | _ | _ <;> simp only [kind] at is <;> try omega
      exact ⟨rfl, List.append_cancel_left same⟩
  | .num q, w, s, t, closed, closed', same => by
      have is := kind_eq same
      rcases w with _ | (_ | _) | q' | _ | _ | _ <;> simp only [kind] at is <;> try omega
      obtain ⟨number, rest⟩ := readable_number fmt q q' s t closed closed' same
      exact ⟨by rw [number], rest⟩
  | .str x, w, s, t, _, _, same => by
      have is := kind_eq same
      rcases w with _ | (_ | _) | _ | x' | _ | _ <;> simp only [kind] at is <;> try omega
      obtain ⟨text, rest⟩ := quote_inj same
      exact ⟨by rw [text], rest⟩
  | .arr items, w, s, t, _, _, same => by
      have is := kind_eq same
      rcases w with _ | (_ | _) | _ | _ | items' | _ <;> simp only [kind] at is <;> try omega
      simp only [render, renderItems_eq, List.cons_append, List.append_assoc, List.nil_append] at same
      have start := fun v s t => render_ne_close fmt (by decide : kindOf ']' = 7) v s t
      obtain ⟨list, rest⟩ := readable_list (by decide) (by decide) start
        (readableItems fmt items) (List.cons.inj same).2
      exact ⟨by rw [list], rest⟩
  | .obj fields, w, s, t, _, _, same => by
      have is := kind_eq same
      rcases w with _ | (_ | _) | _ | _ | _ | fields' <;> simp only [kind] at is <;> try omega
      simp only [render, renderFields_eq, List.cons_append, List.append_assoc, List.nil_append]
        at same
      have start : ∀ field s t, renderField fmt field ++ s ≠ '}' :: t := fun field s t same =>
        absurd (List.cons.inj same).1 (by decide)
      obtain ⟨list, rest⟩ := readable_list (by decide) (by decide) start
        (readableFields fmt fields) (List.cons.inj same).2
      exact ⟨by rw [list], rest⟩

theorem readableItems (fmt : NumberFormat) : (items : List Json) → ∀ v ∈ items, Readable (render fmt) v
  | [], _, mem => absurd mem List.not_mem_nil
  | v :: rest, w, mem => by
      rcases List.mem_cons.mp mem with same | later
      · rw [same]
        exact readable fmt v
      · exact readableItems fmt rest w later

theorem readableFields (fmt : NumberFormat) :
    (fields : List (String × Json)) → ∀ field ∈ fields, Readable (renderField fmt) field
  | [], _, mem => absurd mem List.not_mem_nil
  | (key, v) :: rest, w, mem => by
      rcases List.mem_cons.mp mem with same | later
      · rw [same]
        exact readable_field (readable fmt v)
      · exact readableFields fmt rest w later

end

/-- Data with the same text are the same data. -/
theorem render_injective (fmt : NumberFormat) : Function.Injective (render fmt) := by
  intro v w same
  have closed : Closed [] := nofun
  exact (readable fmt v w [] [] closed closed (by rw [same])).1

end Json

end AnalyticsBackend.Lib
