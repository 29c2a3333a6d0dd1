import Mathlib.Data.List.Induction
import Mathlib.Data.List.TakeWhile
import Xmrig.Base.StringOrder
import Xmrig.Foundation.Replacing
import Xmrig.Foundation.Run

/-! References to variables in texts of the configuration.

The references are collected first. Then one variable after another is replaced in the whole text,
which has the values of the earlier ones by then. No text has a byte that is zero.
-/

set_option autoImplicit false

namespace Xmrig.Env

open Foundation

abbrev Text := List Byte

/-- `std::map<String, String>`; a null string is no value. -/
abbrev Strings := OrderedMap nameOrder (Option Text)

/-- `variables` once it is created, the argument `extra`, and the environment of the process. -/
structure Environment where
  created : Strings
  extra : Strings
  getenv : Text → Option Text

def Environment.get (env : Environment) (name : Text) : Option Text :=
  match env.created.find name with
  | some value => value
  | none =>
    match env.extra.find name with
    | some value => value
    | none => env.getenv name

/-- `${name}` -/
def reference (name : Text) : Text := [36, 123] ++ name ++ [125]

/-- What `[^}]+` is where the expression `\$\{([^}]+)\}` matches at the front. -/
def matchFront (text : Text) : Option Text :=
  let name := (text.drop 2).takeWhile fun char => decide (char ≠ 125)
  if text.take 2 = [36, 123] ∧ name ≠ [] ∧ name.length + 2 < text.length then some name else none

inductive Token where
  | plain (char : Byte)
  | ref (name : Text)
  deriving DecidableEq

/-- The matches from left to right and the characters outside of them; the number of characters
that still belong to the last match. -/
def scan : Nat → Text → List Token
  | _, [] => []
  | skip + 1, _ :: rest => scan skip rest
  | 0, char :: rest =>
      match matchFront (char :: rest) with
      | some name => .ref name :: scan (name.length + 2) rest
      | none => .plain char :: scan 0 rest

def tokens (text : Text) : List Token := scan 0 text

def referenceOrder : KeyOrder Text where
  below first second := strcmpBelow (reference first) (reference second)
  irrefl _ := strcmpBelow_irrefl _
  trans := strcmpBelow_trans

def vars (get : Text → Option Text) (text : Text) : OrderedMap referenceOrder (Option Text) :=
  (tokens text).foldl (fun vars token =>
    match token with
    | .ref name => if vars.has name then vars else vars.insert name (get name)
    | .plain _ => vars) OrderedMap.empty

def replaceVar (text : Text) (kv : Text × Option Text) : Option Text :=
  match kv.2 with
  | none => some text
  | some value => replaceFrom (reference kv.1) value (text.length + 1) text 0

/-- Nothing is left of a loop that does not end; a null string stays null. -/
def expand (env : Environment) : Option Text → Option (Option Text)
  | none => some none
  | some text =>
      if text.length < 4 then some (some text)
      else (run replaceVar text (vars env.get text).entries).map some

/-! ## Substitution -/

def Token.value (get : Text → Option Text) : Token → Text
  | .plain char => [char]
  | .ref name => (get name).getD (reference name)

def substitute (get : Text → Option Text) (items : List Token) : Text := items.flatMap (Token.value get)

def among (done : List Text) (get : Text → Option Text) (name : Text) : Option Text :=
  if name ∈ done then get name else none

def rounds (get : Text → Option Text) (order : List Text) : List (Text × Option Text) :=
  order.map fun name => (name, get name)

/-- Some order of the variables of a text. -/
def IsOrder (text : Text) (order : List Text) : Prop := order.Nodup ∧ ∀ name, name ∈ order ↔ .ref name ∈ tokens text

/-- A search in the current text finds a variable that has a value where the input refers to it. -/
def FoundAtMatches (get : Text → Option Text) (text : Text) (done : List Text) (name current : Text) : Prop :=
  ∀ value, get name = some value →
    partsBetween (reference name) (current.length + 1) current =
      ((tokens text).splitOn (.ref name)).map (substitute (among done get))

/-- What is replaced on the way are the matches of the input, never something in a value. -/
def OnlyMatches (get : Text → Option Text) (text : Text) (order : List Text) : Prop :=
  ∀ done name rest, order = done ++ name :: rest →
    ∃ current, run replaceVar text (rounds get done) = some current ∧ FoundAtMatches get text done name current

/-- With the earlier variables substituted, the references to the next one are those of the input. -/
def Separate (get : Text → Option Text) (text : Text) (order : List Text) : Prop :=
  ∀ done name rest, order = done ++ name :: rest →
    FoundAtMatches get text done name (substitute (among done get) (tokens text))

/-! ## Tokens -/

section Tokens
variable {get : Text → Option Text} {text rest name value current : Text} {done order : List Text}

theorem reference_ne_nil (name : Text) : reference name ≠ [] := List.cons_ne_nil _ _

theorem reference_injective {first second : Text} (same : reference first = reference second) : first = second :=
  List.append_cancel_left (List.append_cancel_right same)

theorem reference_length (name : Text) : (reference name).length = name.length + 3 := by
  unfold reference
  rw [List.length_append, List.length_append]
  change 2 + name.length + 1 = name.length + 3
  omega

theorem name_closed {body : Text} (ends : (body.takeWhile fun char => decide (char ≠ 125)).length < body.length) :
    ∃ rest, body = (body.takeWhile fun char => decide (char ≠ 125)) ++ 125 :: rest := by
  induction body with
  | nil => exact (Nat.not_lt_zero _ ends).elim
  | cons char rest ih =>
    by_cases brace : char = 125
    · subst brace
      exact ⟨rest, rfl⟩
    · have kept : ((char :: rest).takeWhile fun char => decide (char ≠ 125)) =
          char :: rest.takeWhile fun char => decide (char ≠ 125) := List.takeWhile_cons_of_pos (decide_eq_true brace)
      rw [kept] at ends ⊢
      obtain ⟨after, closed⟩ := ih (Nat.lt_of_succ_lt_succ ends)
      exact ⟨after, congrArg (char :: ·) closed⟩

theorem matchFront_eq (found : matchFront text = some name) : text = reference name ++ text.drop (name.length + 3) := by
  unfold matchFront at found
  dsimp only at found
  split at found
  · next front =>
    obtain ⟨opened, -, closed⟩ := front
    have named := Option.some.inj found
    obtain ⟨rest, body⟩ := @name_closed (text.drop 2) (by rw [List.length_drop]; omega)
    have whole : text = reference name ++ rest := by
      rw [named] at body
      rw [← List.take_append_drop 2 text, opened, body, reference]
      simp only [List.append_assoc, List.singleton_append]
    rw [← reference_length]
    conv_rhs => rw [whole, List.drop_left]
    exact whole
  · cases found

theorem substitute_scan (skip : Nat) (text : Text) : substitute (fun _ => none) (scan skip text) = text.drop skip := by
  induction text generalizing skip with
  | nil => cases skip <;> rfl
  | cons char rest ih =>
    cases skip with
    | succ skip => exact ih skip
    | zero =>
      unfold scan
      split
      · next name found =>
        have whole := matchFront_eq found
        change reference name ++ substitute (fun _ => none) (scan (name.length + 2) rest) = char :: rest
        rw [ih]
        exact whole.symm
      · change char :: substitute (fun _ => none) (scan 0 rest) = char :: rest
        rw [ih]
        rfl

theorem substitute_none (text : Text) : substitute (fun _ => none) (tokens text) = text := substitute_scan 0 text

theorem substitute_congr {items : List Token} {get other : Text → Option Text}
    (agree : ∀ name, .ref name ∈ items → get name = other name) : substitute get items = substitute other items := by
  induction items with
  | nil => rfl
  | cons item rest ih =>
    have front : item.value get = item.value other := by
      cases item with
      | plain char => rfl
      | ref name => exact congrArg (Option.getD · _) (agree name List.mem_cons_self)
    change item.value get ++ substitute get rest = item.value other ++ substitute other rest
    rw [front, ih fun name there => agree name (List.mem_cons_of_mem _ there)]

theorem among_none (nothing : get name = none) : among (done ++ [name]) get = among done get := by
  funext other
  unfold among
  by_cases same : other = name
  · subst same
    rw [nothing, ite_self, ite_self]
  · simp only [List.mem_append, List.mem_singleton, same, or_false]

theorem among_other {other : Text} (apart : other ≠ name) : among (done ++ [name]) get other = among done get other := by
  unfold among
  simp only [List.mem_append, List.mem_singleton, apart, or_false]

theorem among_nil : among [] get = fun _ => none := by
  funext name
  exact if_neg List.not_mem_nil

/-! ## One variable after another -/

theorem replaceVar_some (kv : Text × Option Text) : ∃ replaced, replaceVar text kv = some replaced := by
  unfold replaceVar
  cases kv.2 with
  | none => exact ⟨_, rfl⟩
  | some value => exact ⟨_, replaceFrom_whole (reference_ne_nil kv.1) value text⟩

theorem run_some (kvs : List (Text × Option Text)) : ∃ replaced, run replaceVar text kvs = some replaced := by
  induction kvs generalizing text with
  | nil => exact ⟨text, rfl⟩
  | cons kv rest ih =>
    obtain ⟨next, replaced⟩ := @replaceVar_some text kv
    obtain ⟨final, finished⟩ := @ih next
    exact ⟨final, run_cons_iff.mpr ⟨next, replaced, finished⟩⟩

/-- A variable that is found where the input refers to it is substituted there. -/
theorem replaceVar_substitute (found : FoundAtMatches get text done name (substitute (among done get) (tokens text))) :
    replaceVar (substitute (among done get) (tokens text)) (name, get name) =
      some (substitute (among (done ++ [name]) get) (tokens text)) := by
  cases defined : get name with
  | none =>
    rw [among_none defined]
    rfl
  | some value =>
    have here : Token.value (among (done ++ [name]) get) (.ref name) = value := by
      change (among (done ++ [name]) get name).getD _ = value
      rw [among, if_pos (List.mem_append_right _ List.mem_cons_self), defined]
      rfl
    have elsewhere (token : Token) (other : token ≠ .ref name) :
        token.value (among done get) = token.value (among (done ++ [name]) get) := by
      cases token with
      | plain char => rfl
      | ref another =>
        change (among done get another).getD _ = (among (done ++ [name]) get another).getD _
        rw [among_other fun same => other (congrArg Token.ref same)]
    have parts := intercalate_splitOn_flatMap elsewhere (tokens text)
    rw [here] at parts
    have loop := replaceFrom_whole (reference_ne_nil name) value (substitute (among done get) (tokens text))
    rw [found value defined] at loop
    exact loop.trans (congrArg some parts)

/-- While the variables are found where the input refers to them, the text is that with the earlier
ones substituted. -/
theorem run_substitute (step : ∀ done name rest, order = done ++ name :: rest →
      run replaceVar text (rounds get done) = some (substitute (among done get) (tokens text)) →
      FoundAtMatches get text done name (substitute (among done get) (tokens text)))
    (done rest : List Text) (split : order = done ++ rest) :
    run replaceVar text (rounds get done) = some (substitute (among done get) (tokens text)) := by
  induction done using List.reverseRecOn generalizing rest with
  | nil =>
    rw [among_nil, substitute_none]
    rfl
  | append_singleton done name ih =>
    rw [List.append_assoc] at split
    have before := ih (name :: rest) split
    have found := step done name rest split before
    rw [rounds, List.map_append, run_append]
    change (run replaceVar text (rounds get done)).bind _ = _
    rw [before, Option.bind_some]
    change (replaceVar _ (name, get name)).bind some = _
    rw [replaceVar_substitute found]
    rfl

theorem separate_iff : OnlyMatches get text order ↔ Separate get text order := by
  constructor
  · intro only done name rest split
    have step (done : List Text) (name : Text) (rest : List Text) (split : order = done ++ name :: rest)
        (before : run replaceVar text (rounds get done) = some (substitute (among done get) (tokens text))) :
        FoundAtMatches get text done name (substitute (among done get) (tokens text)) := by
      obtain ⟨current, reached, found⟩ := only done name rest split
      rw [before] at reached
      cases reached
      exact found
    exact step done name rest split (run_substitute step done _ split)
  · intro separate done name rest split
    exact ⟨_, run_substitute (fun done name rest split _ => separate done name rest split) done _ split,
      separate done name rest split⟩

theorem separate_result (separate : Separate get text order) (all : ∀ name, .ref name ∈ tokens text → name ∈ order) :
    run replaceVar text (rounds get order) = some (substitute get (tokens text)) := by
  rw [run_substitute (fun done name rest split _ => separate done name rest split) order [] (List.append_nil _).symm]
  congr 1
  apply substitute_congr
  intro name there
  exact if_pos (all name there)

/-! ## The order of the map -/

theorem referenceOrder_total : referenceOrder.Total := by
  intro first second same
  obtain ⟨below, above⟩ := KeyOrder.same_iff.mp same
  exact reference_injective (strcmpBelow_total below above)

/-- The variables of some tokens, with their values. -/
structure Collected (get : Text → Option Text) (items : List Token)
    (map : OrderedMap referenceOrder (Option Text)) : Prop where
  value : ∀ entry ∈ map.entries, entry.2 = get entry.1
  names : ∀ name, map.has name = true ↔ .ref name ∈ items

theorem Collected.add {items : List Token} {map : OrderedMap referenceOrder (Option Text)}
    (collected : Collected get items map) (name : Text) :
    Collected get (items ++ [.ref name]) (if map.has name then map else map.insert name (get name)) := by
  by_cases there : map.has name = true
  · rw [if_pos there]
    refine ⟨collected.value, fun other => ?_⟩
    rw [collected.names, List.mem_append, List.mem_singleton]
    constructor
    · exact .inl
    · rintro (old | new)
      · exact old
      · cases new
        exact (collected.names name).mp there
  · rw [if_neg there]
    refine ⟨fun entry kept => ?_, fun other => ?_⟩
    · rcases (OrderedMap.mem_insert map).mp kept with old | ⟨-, rfl⟩
      · exact collected.value entry old
      · rfl
    · rw [OrderedMap.has_insert_total map referenceOrder_total, collected.names, List.mem_append, List.mem_singleton,
        Token.ref.injEq, eq_comm]

theorem vars_collected (get : Text → Option Text) (text : Text) : Collected get (tokens text) (vars get text) := by
  have whole (items seen : List Token) (map : OrderedMap referenceOrder (Option Text)) (collected : Collected get seen map) :
      Collected get (seen ++ items) (items.foldl (fun vars token =>
        match token with
        | .ref name => if vars.has name then vars else vars.insert name (get name)
        | .plain _ => vars) map) := by
    induction items generalizing seen map with
    | nil => rwa [List.append_nil]
    | cons item rest ih =>
      rw [← List.singleton_append, ← List.append_assoc]
      cases item with
      | plain char =>
        refine ih _ map ⟨collected.value, fun name => ?_⟩
        rw [collected.names, List.mem_append, List.mem_singleton]
        exact ⟨.inl, fun either => either.elim id fun plain => by cases plain⟩
      | ref name => exact ih _ _ (collected.add name)
  refine whole (tokens text) [] OrderedMap.empty ⟨fun entry kept => ?_, fun name => ?_⟩
  · cases kept
  · exact iff_of_false Bool.false_ne_true List.not_mem_nil

def names (get : Text → Option Text) (text : Text) : List Text := (vars get text).entries.map Prod.fst

theorem names_rounds (get : Text → Option Text) (text : Text) : rounds get (names get text) = (vars get text).entries := by
  rw [rounds, names, List.map_map]
  conv_rhs => rw [← List.map_id (vars get text).entries]
  apply List.map_congr_left
  intro entry kept
  exact Prod.ext rfl ((vars_collected get text).value entry kept).symm

theorem names_isOrder (get : Text → Option Text) (text : Text) : IsOrder text (names get text) := by
  refine ⟨?_, fun name => ?_⟩
  · apply List.pairwise_map.mpr
    apply (vars get text).sorted.imp
    intro first second below same
    rw [same, referenceOrder.irrefl] at below
    cases below
  · rw [← (vars_collected get text).names, OrderedMap.has_iff, names, List.mem_map]
    apply exists_congr
    intro entry
    apply and_congr_right
    intro _
    constructor
    · rintro rfl
      exact referenceOrder.same_self entry.1
    · exact referenceOrder_total entry.1 name

/-! ## Ordinary values -/

theorem name_lacks_brace {body : Text} : 125 ∉ body.takeWhile fun char => decide (char ≠ 125) := by
  intro brace
  have other := List.mem_takeWhile_imp brace
  exact of_decide_eq_true other rfl

/-- A value that has no beginning of a reference, nor ends one. -/
def Harmless (value : Text) : Prop := value ≠ [] ∧ value.head? ≠ some 123 ∧ 36 ∉ value

theorem ref_mem {skip : Nat} (there : .ref name ∈ scan skip text) :
    name ≠ [] ∧ 125 ∉ name ∧ 4 ≤ text.length ∧ 125 ∈ text := by
  induction text generalizing skip with
  | nil => cases skip <;> cases there
  | cons char rest ih =>
    have behind {skip : Nat} (later : .ref name ∈ scan skip rest) :
        name ≠ [] ∧ 125 ∉ name ∧ 4 ≤ (char :: rest).length ∧ 125 ∈ char :: rest := by
      obtain ⟨some_char, closed, long, brace⟩ := ih later
      exact ⟨some_char, closed, Nat.le_succ_of_le long, List.mem_cons_of_mem _ brace⟩
    cases skip with
    | succ skip => exact behind there
    | zero =>
      unfold scan at there
      split at there
      · next found_name found =>
        rcases List.mem_cons.mp there with here | later
        · cases here
          have whole := matchFront_eq found
          unfold matchFront at found
          dsimp only at found
          split at found
          · next front =>
            obtain ⟨-, some_char, closed⟩ := front
            have named := Option.some.inj found
            rw [named] at some_char closed
            refine ⟨some_char, fun brace => ?_, ?_, ?_⟩
            · rw [← named] at brace
              exact name_lacks_brace brace
            · have positive := List.length_pos_iff.mpr some_char
              omega
            · rw [whole]
              exact List.mem_append_left _ (List.mem_append_right _ List.mem_cons_self)
          · cases found
        · exact behind later
      · rcases List.mem_cons.mp there with here | later
        · cases here
        · exact behind later

/-- A reference does not begin where there is no dollar sign. -/
theorem not_found_in {front : Text} (no_dollar : 36 ∉ front) (i : Nat) (inside : i < front.length) :
    ¬reference name <+: (front ++ text).drop i := by
  intro found
  rw [List.drop_append_of_le_length (Nat.le_of_lt inside), List.drop_eq_getElem_cons inside] at found
  have dollar := (List.cons_prefix_cons.mp found).1
  rw [dollar] at no_dollar
  exact no_dollar (List.getElem_mem inside)

theorem takeWhile_name (closed : 125 ∉ name) (rest : Text) :
    (name ++ 125 :: rest).takeWhile (fun char => decide (char ≠ 125)) = name := by
  rw [List.takeWhile_append_of_pos]
  · exact List.append_nil name
  · intro char there
    apply decide_eq_true
    rintro rfl
    exact closed there

theorem not_found_in_reference {other : Text} (apart : other ≠ name) (closed : 125 ∉ name) (other_closed : 125 ∉ other)
    (no_dollar : 36 ∉ other) (i : Nat) (inside : i < (reference other).length) :
    ¬reference name <+: (reference other ++ text).drop i := by
  cases i with
  | zero =>
    intro found
    obtain ⟨rest, whole⟩ := found
    unfold reference at whole
    simp only [List.append_assoc, List.drop_zero, List.singleton_append] at whole
    have same := congrArg (List.takeWhile fun char : Byte => decide (char ≠ 125)) (List.append_cancel_left whole)
    rw [takeWhile_name closed, takeWhile_name other_closed] at same
    exact apart same.symm
  | succ i =>
    have rest : 36 ∉ 123 :: (other ++ [125]) := by
      rw [List.mem_cons, List.mem_append, List.mem_singleton]
      rintro (brace | inside | brace)
      · exact absurd brace (by decide)
      · exact no_dollar inside
      · exact absurd brace (by decide)
    exact not_found_in rest i (Nat.lt_of_succ_lt_succ inside)

theorem unmatched_body {body : Text} (outside : matchFront (36 :: 123 :: body) = none) :
    (body.takeWhile fun char => decide (char ≠ 125)) = [] ∨ 125 ∉ body := by
  by_contra both
  obtain ⟨some_char, brace⟩ := not_or.mp both
  have closed : 125 ∈ body := not_not.mp brace
  have shorter : (body.takeWhile fun char => decide (char ≠ 125)).length < body.length := by
    apply Nat.lt_of_le_of_ne (List.takeWhile_prefix _).length_le
    intro whole
    rw [← (List.takeWhile_prefix _).eq_of_length whole] at closed
    exact name_lacks_brace closed
  have matched : matchFront (36 :: 123 :: body) = some _ := if_pos ⟨rfl, some_char, Nat.add_lt_add_right shorter 2⟩
  rw [matched] at outside
  cases outside

theorem not_found_outside (outside : matchFront (36 :: rest) = none) (some_char : name ≠ []) (closed : 125 ∉ name)
    (harmless : ∀ other, .ref other ∈ scan 0 rest → ∀ value, get other = some value → Harmless value) :
    ¬reference name <+: 36 :: substitute get (scan 0 rest) := by
  intro found
  have brace : 123 :: (name ++ [125]) <+: substitute get (scan 0 rest) := (List.cons_prefix_cons.mp found).2
  cases rest with
  | nil => exact List.cons_ne_nil _ _ (List.prefix_nil.mp brace)
  | cons char body =>
    unfold scan at brace harmless
    split at brace
    · next other _ =>
      change _ <+: (get other).getD (reference other) ++ _ at brace
      cases defined : get other with
      | none =>
        rw [defined] at brace
        exact absurd (List.cons_prefix_cons.mp brace).1 (by decide)
      | some value =>
        obtain ⟨some_value, front, -⟩ := harmless other (by simp [*]) value defined
        rw [defined] at brace
        cases value with
        | nil => exact some_value rfl
        | cons first value => exact front (congrArg some (List.cons_prefix_cons.mp brace).1.symm)
    · obtain ⟨rfl, inner⟩ := List.cons_prefix_cons.mp brace
      have at_brace : 125 ∈ substitute get (scan 0 body) := inner.subset (List.mem_append_right _ List.mem_cons_self)
      rcases unmatched_body outside with empty | open_end
      · cases body with
        | nil => cases at_brace
        | cons stop after =>
          have first : stop = 125 := by
            by_contra other
            have kept : ((stop :: after).takeWhile fun char => decide (char ≠ 125)) = stop :: _ :=
              List.takeWhile_cons_of_pos (decide_eq_true other)
            rw [kept] at empty
            cases empty
          subst first
          change _ <+: 125 :: substitute get (scan 0 after) at inner
          cases name with
          | nil => exact some_char rfl
          | cons char name =>
            apply closed
            rw [(List.cons_prefix_cons.mp inner).1]
            exact List.mem_cons_self
      · have alone : substitute get (scan 0 body) = body := by
          conv_rhs => rw [← substitute_none body]
          apply substitute_congr
          intro other there
          exact absurd (ref_mem there).2.2.2 open_end
        rw [alone] at at_brace
        exact open_end at_brace

theorem parts_behind {items : List Token} {item : Token} {rounds : Nat} (other : item ≠ .ref name)
    (apart : ∀ i < (item.value get).length, ¬reference name <+: (item.value get ++ substitute get items).drop i)
    (rest : partsBetween (reference name) rounds (substitute get items) =
      (items.splitOn (.ref name)).map (substitute get)) :
    partsBetween (reference name) rounds (substitute get (item :: items)) =
      ((item :: items).splitOn (.ref name)).map (substitute get) := by
  obtain ⟨part, parts, split⟩ := List.exists_cons_of_ne_nil (List.splitOn_ne_nil (Token.ref name) items)
  change partsBetween _ _ (item.value get ++ substitute get items) = _
  rw [partsBetween_append apart, rest, List.splitOn_cons_eq_if_modifyHead, if_neg fun equal => other (beq_iff_eq.mp equal),
    split]
  rfl

/-- With ordinary values in the place of other references, a reference is found where it is. -/
theorem parts_ordinary {skip rounds : Nat} (some_char : name ≠ []) (closed : 125 ∉ name) (kept : get name = none)
    (ordinary : ∀ other, .ref other ∈ scan skip text → 36 ∉ other ∧ ∀ value, get other = some value → Harmless value)
    (enough : (substitute get (scan skip text)).length < rounds) :
    partsBetween (reference name) rounds (substitute get (scan skip text)) =
      ((scan skip text).splitOn (.ref name)).map (substitute get) := by
  obtain ⟨rounds, rfl⟩ := Nat.exists_eq_succ_of_ne_zero (Nat.ne_zero_of_lt enough)
  induction text generalizing skip rounds with
  | nil =>
    have none_left : scan skip [] = [] := by cases skip <;> rfl
    rw [none_left]
    rfl
  | cons char rest ih =>
    cases skip with
    | succ skip => exact ih ordinary rounds enough
    | zero =>
      unfold scan at ordinary enough ⊢
      split
      · next other found =>
        rw [found] at ordinary enough
        dsimp only at ordinary enough
        have later := fun another there => ordinary another (List.mem_cons_of_mem _ there)
        obtain ⟨no_dollar, harmless⟩ := ordinary other List.mem_cons_self
        change (Token.value get (.ref other) ++ substitute get (scan _ rest)).length < _ at enough
        rw [List.length_append] at enough
        by_cases same : other = name
        · subst same
          have whole : Token.value get (.ref other) = reference other := by rw [Token.value, kept]; rfl
          rw [whole, reference_length] at enough
          obtain ⟨rounds, rfl⟩ : ∃ fewer, rounds = fewer + 1 := ⟨rounds - 1, by omega⟩
          change partsBetween _ _ (Token.value get (.ref other) ++ substitute get (scan _ rest)) = _
          rw [whole, partsBetween_front (reference_ne_nil other), ih later rounds (by omega),
            List.splitOn_cons_eq_if_modifyHead, if_pos (beq_self_eq_true _)]
          rfl
        · apply parts_behind fun equal => same (Token.ref.inj equal)
          · cases defined : get other with
            | none =>
              have whole : Token.value get (.ref other) = reference other := by rw [Token.value, defined]; rfl
              have other_closed : 125 ∉ other := by
                apply (@ref_mem (char :: rest) other 0 _).2.1
                unfold scan
                rw [found]
                exact List.mem_cons_self
              rw [whole]
              exact not_found_in_reference same closed other_closed no_dollar
            | some value =>
              have whole : Token.value get (.ref other) = value := by rw [Token.value, defined]; rfl
              rw [whole]
              exact not_found_in (harmless value defined).2.2
          · exact ih later rounds (by omega)
      · next found =>
        rw [found] at ordinary enough
        dsimp only at ordinary enough
        have later := fun another there => ordinary another (List.mem_cons_of_mem _ there)
        change ([char] ++ substitute get (scan _ rest)).length < _ at enough
        rw [List.length_append] at enough
        apply parts_behind Token.noConfusion
        · by_cases dollar : char = 36
          · subst dollar
            rintro (_ | i) inside
            · exact not_found_outside found some_char closed fun other there => (later other there).2
            · exact absurd inside (by simp [Token.value])
          · exact not_found_in fun there => dollar (List.mem_singleton.mp there).symm
        · exact ih later rounds (by omega)

/-- Names without dollar signs and ordinary values do not meet. -/
theorem separate_ordinary (isOrder : IsOrder text order)
    (ordinary : ∀ name, .ref name ∈ tokens text → 36 ∉ name ∧ ∀ value, get name = some value → Harmless value) :
    Separate get text order := by
  rintro done name rest rfl value -
  obtain ⟨-, -, apart⟩ := List.pairwise_append.mp isOrder.1
  have new : name ∉ done := fun there => apart name there name List.mem_cons_self rfl
  have there : .ref name ∈ tokens text := (isOrder.2 name).mp (List.mem_append_right _ List.mem_cons_self)
  obtain ⟨some_char, closed, -, -⟩ := ref_mem there
  apply parts_ordinary some_char closed (if_neg new) _ (Nat.lt_succ_self _)
  intro other listed
  refine ⟨(ordinary other listed).1, fun value defined => ?_⟩
  unfold among at defined
  split at defined
  · exact (ordinary other listed).2 value defined
  · cases defined

end Tokens

/-! ## The whole function -/

theorem expand_eq (env : Environment) (text : Text) :
    expand env (some text) = (run replaceVar text (rounds env.get (names env.get text))).map some := by
  unfold expand
  dsimp only
  split
  · next short =>
    have unnamed : names env.get text = [] := by
      apply List.eq_nil_iff_forall_not_mem.mpr
      intro name there
      have long := (ref_mem (((names_isOrder env.get text).2 name).mp there)).2.2.1
      exact Nat.not_le.mpr short long
    rw [unnamed]
    rfl
  · rw [names_rounds]

/-- Variables in this order give the text with all references replaced at once, and nothing else is
replaced on the way. -/
def Simultaneous (get : Text → Option Text) (text : Text) (order : List Text) : Prop :=
  run replaceVar text (rounds get order) = some (substitute get (tokens text)) ∧ OnlyMatches get text order

theorem simultaneous_iff {get : Text → Option Text} {text : Text} {order : List Text} (isOrder : IsOrder text order) :
    Simultaneous get text order ↔ Separate get text order :=
  ⟨fun simultaneous => separate_iff.mp simultaneous.2, fun separate =>
    ⟨separate_result separate fun name there => (isOrder.2 name).mpr there, separate_iff.mpr separate⟩⟩

theorem expand_ordinary {env : Environment} {text : Text}
    (ordinary : ∀ name, .ref name ∈ tokens text → 36 ∉ name ∧ ∀ value, env.get name = some value → Harmless value) :
    expand env (some text) = some (some (substitute env.get (tokens text))) := by
  have isOrder := names_isOrder env.get text
  rw [expand_eq, ((simultaneous_iff isOrder).mpr (separate_ordinary isOrder ordinary)).1]
  rfl

/-- The expansion ends. It is the simultaneous substitution, with nothing in a value replaced, exactly
when the variables in its order stay separate, and it does not depend on the order exactly when they
stay separate in every order. -/
theorem expand_iff (env : Environment) (text : Text) :
    (∃ result, expand env (some text) = some (some result)) ∧
      (expand env (some text) = some (some (substitute env.get (tokens text))) ∧
          OnlyMatches env.get text (names env.get text) ↔
        Separate env.get text (names env.get text)) ∧
      ((∀ order, IsOrder text order → Simultaneous env.get text order) ↔
        ∀ order, IsOrder text order → Separate env.get text order) := by
  refine ⟨?_, ?_, ?_⟩
  · obtain ⟨result, ended⟩ := @run_some text (rounds env.get (names env.get text))
    exact ⟨result, by rw [expand_eq, ended]; rfl⟩
  · rw [← simultaneous_iff (names_isOrder env.get text), expand_eq, Simultaneous]
    apply and_congr_left
    intro _
    rw [Option.map_eq_some_iff]
    constructor
    · rintro ⟨result, ended, same⟩
      rw [ended, Option.some.inj same]
    · exact fun ended => ⟨_, ended, rfl⟩
  · apply forall_congr'
    intro order
    apply imp_congr_right
    exact simultaneous_iff

/-- The first variable has a reference to the second one as its value. -/
def chained : Environment where
  created := OrderedMap.empty
  extra := OrderedMap.empty
  getenv name := if name = [97] then some (reference [98]) else if name = [98] then some [120] else none

/-- `${a} ${b}` -/
def twoReferences : Text := reference [97] ++ [32] ++ reference [98]

theorem value_expanded_again :
    expand chained (some twoReferences) = some (some [120, 32, 120]) ∧
      substitute chained.get (tokens twoReferences) = reference [98] ++ [32, 120] ∧
      run replaceVar twoReferences (rounds chained.get [[98], [97]]) = some (reference [98] ++ [32, 120]) := by
  decide

end Xmrig.Env
