import Xmrig.Foundation.Interaction

/-! Two executions side by side.

The executions perform the same operations from states that are alike in part. A field that an
operation touches is alike afterwards, whatever it was before, and a field that is alike stays
so; a field that no operation touches is what it was.
-/

set_option autoImplicit false

namespace Foundation

variable {I : Interface} {Stop State A B : Type}

def performed (handler : Handler I Stop State) : Program I A → State → List I.Op
  | .done _, _ => []
  | .call op next, state =>
    op :: match handler op state with
      | (.ok reply, after) => performed handler (next reply) after
      | (.error _, _) => []

variable {handler : Handler I Stop State}

@[simp] theorem performed_pure (value : A) (state : State) :
    performed handler (pure value : Program I A) state = [] := rfl

@[simp] theorem performed_perform (op : I.Op) (state : State) :
    performed handler (.perform op) state = [op] := by
  simp only [Program.perform, performed]
  split <;> rfl

theorem performed_bind (program : Program I A) (after : A → Program I B) (state : State) :
    performed handler (program >>= after) state = performed handler program state ++
      match exec handler program state with
      | (.ok value, middle) => performed handler (after value) middle
      | (.error _, _) => [] := by
  change performed handler (program.bind after) state = _
  induction program generalizing state with
  | done value => rfl
  | call op next ih =>
    simp only [Program.bind, performed, exec]
    rcases handler op state with ⟨why | reply, after⟩
    · rfl
    · exact congrArg (op :: ·) (ih reply after)

theorem performed_interpret {J : Interface} {inner : Handler J Stop State}
    {meaning : (op : J.Op) → Program I (J.Reply op)} {whole : J.Op → I.Op}
    (realizes : ∀ op state, exec handler (meaning op) state = inner op state)
    (single : ∀ op state, performed handler (meaning op) state = [whole op])
    (program : Program J A) (state : State) :
    performed handler (program.interpret meaning) state = (performed inner program state).map whole := by
  induction program generalizing state with
  | done value => rfl
  | call op next ih =>
    change performed handler (meaning op >>= fun reply => (next reply).interpret meaning) state = _
    rw [performed_bind, single, realizes, performed]
    rcases inner op state with ⟨why | reply, after⟩
    · rfl
    · exact congrArg (whole op :: ·) (ih reply after)

section Fields
variable {Field : Type} (touches : I.Op → Field → Prop) (agrees : Field → State → State → Prop)

/-- The states before and behind operations: what they touched agrees, and what agreed still does. -/
def Settled (operations : List I.Op) (s t s' t' : State) : Prop :=
  ∀ field, (∃ op ∈ operations, touches op field) ∨ agrees field s t → agrees field s' t'

variable {touches agrees}

theorem settled_nil (s t : State) : Settled touches agrees ([] : List I.Op) s t s t := by
  rintro field (⟨op, none, -⟩ | kept)
  · exact absurd none List.not_mem_nil
  · exact kept

theorem Settled.append {first second : List I.Op} {s t s' t' s'' t'' : State}
    (one : Settled touches agrees first s t s' t') (two : Settled touches agrees second s' t' s'' t'') :
    Settled touches agrees (first ++ second) s t s'' t'' := by
  rintro field (⟨op, member, touched⟩ | kept)
  · rcases List.mem_append.mp member with early | late
    · exact two field (.inr (one field (.inl ⟨op, early, touched⟩)))
    · exact two field (.inl ⟨op, late, touched⟩)
  · exact two field (.inr (one field (.inr kept)))

theorem exec_untouched {field : Field} (refl : ∀ s, agrees field s s)
    (trans : ∀ s t u, agrees field s t → agrees field t u → agrees field s u)
    (step : ∀ op s, ¬ touches op field → agrees field (handler op s).2 s) (program : Program I A) (state : State)
    (untouched : ∀ op ∈ performed handler program state, ¬ touches op field) :
    agrees field (exec handler program state).2 state := by
  induction program generalizing state with
  | done value => exact refl state
  | call op next ih =>
    rw [performed] at untouched
    have first := step op state (untouched op List.mem_cons_self)
    simp only [exec]
    split
    · rename_i reply after taken
      rw [taken] at first untouched
      exact trans _ _ _ (ih reply after fun other member => untouched other (List.mem_cons_of_mem op member)) first
    · rename_i why after taken
      rw [taken] at first
      exact first

variable (handler touches agrees)

/-- From states in the first relation both programs perform the same operations to the same end,
and to states in the second relation if nothing stops them. -/
def Twin (K : State → State → Prop) (first second : Program I A) (L : State → State → Prop) : Prop :=
  ∀ s t, K s t → (exec handler first s).1 = (exec handler second t).1 ∧
    performed handler first s = performed handler second t ∧
    Settled touches agrees (performed handler first s) s t (exec handler first s).2 (exec handler second t).2 ∧
    ∀ value, (exec handler first s).1 = .ok value → L (exec handler first s).2 (exec handler second t).2

variable {handler touches agrees} {K L M : State → State → Prop}

theorem twin_pure (value : A) (implies : ∀ s t, K s t → L s t) :
    Twin handler touches agrees K (pure value) (pure value) L :=
  fun s t related => ⟨rfl, rfl, settled_nil s t, fun _ _ => implies s t related⟩

theorem Twin.bind {first second : Program I A} {next later : A → Program I B}
    (front : Twin handler touches agrees K first second M)
    (rest : ∀ value, Twin handler touches agrees M (next value) (later value) L) :
    Twin handler touches agrees K (first >>= next) (second >>= later) L := by
  intro s t related
  obtain ⟨outcome, operations, settled, ends⟩ := front s t related
  rw [exec_bind, exec_bind, performed_bind, performed_bind]
  rcases one : exec handler first s with ⟨why | value, s'⟩ <;> rcases two : exec handler second t with ⟨why' | value', t'⟩
  · rw [one, two] at outcome settled
    cases outcome
    exact ⟨rfl, by rw [operations], by rw [List.append_nil]; exact settled, fun _ none => by cases none⟩
  · rw [one, two] at outcome
    cases outcome
  · rw [one, two] at outcome
    cases outcome
  · rw [one, two] at outcome settled ends
    cases outcome
    obtain ⟨outcome, operations', settled', ends'⟩ := rest value s' t' (ends value rfl)
    exact ⟨outcome, congrArg₂ (· ++ ·) operations operations', settled.append settled', ends'⟩

theorem Twin.mono {K' L' : State → State → Prop} {first second : Program I A}
    (twin : Twin handler touches agrees K first second L) (less : ∀ s t, K' s t → K s t)
    (more : ∀ s t, L s t → L' s t) : Twin handler touches agrees K' first second L' := by
  intro s t related
  obtain ⟨outcome, operations, settled, ends⟩ := twin s t (less s t related)
  exact ⟨outcome, operations, settled, fun value ok => more _ _ (ends value ok)⟩

theorem Twin.less {touches' : I.Op → Field → Prop} {first second : Program I A}
    (twin : Twin handler touches agrees K first second L) (fewer : ∀ op field, touches' op field → touches op field) :
    Twin handler touches' agrees K first second L := by
  intro s t related
  obtain ⟨outcome, operations, settled, ends⟩ := twin s t related
  refine ⟨outcome, operations, fun field here => settled field ?_, ends⟩
  rcases here with ⟨op, member, touched⟩ | kept
  · exact .inl ⟨op, member, fewer op field touched⟩
  · exact .inr kept

theorem twin_perform {op : I.Op}
    (step : ∀ s t, K s t → (handler op s).1 = (handler op t).1 ∧
      Settled touches agrees [op] s t (handler op s).2 (handler op t).2 ∧
      ∀ value, (handler op s).1 = .ok value → L (handler op s).2 (handler op t).2) :
    Twin handler touches agrees K (.perform op) (.perform op) L := by
  intro s t related
  rw [exec_perform, exec_perform, performed_perform, performed_perform]
  obtain ⟨outcome, settled, ends⟩ := step s t related
  exact ⟨outcome, rfl, settled, ends⟩

theorem twin_all {allowed : I.Op → Prop}
    (step : ∀ op, allowed op → ∀ s t, K s t → (handler op s).1 = (handler op t).1 ∧
      Settled touches agrees [op] s t (handler op s).2 (handler op t).2 ∧
      ∀ value, (handler op s).1 = .ok value → K (handler op s).2 (handler op t).2)
    {program : Program I A} (all : program.All allowed) : Twin handler touches agrees K program program K := by
  induction program with
  | done value => exact twin_pure value fun _ _ related => related
  | call op next ih =>
    have first : Twin handler touches agrees K (Program.perform op) (Program.perform op) K := twin_perform (step op all.1)
    exact first.bind fun reply => ih reply (all.2 reply)

end Fields

section Always
variable {P : I.Op → Prop}

variable (handler) in
/-- No execution ends with a value before it has performed such an operation. -/
def Always (P : I.Op → Prop) (program : Program I A) : Prop :=
  ∀ state value, (exec handler program state).1 = .ok value → ∃ op ∈ performed handler program state, P op

theorem always_perform {op : I.Op} (here : P op) : Always handler P (.perform op) :=
  fun _ _ _ => ⟨op, by simp, here⟩

theorem Always.front {program : Program I A} (always : Always handler P program) (after : A → Program I B) :
    Always handler P (program >>= after) := by
  intro state value ends
  rw [exec_bind] at ends
  rw [performed_bind]
  rcases first : exec handler program state with ⟨why | early, middle⟩
  · rw [first] at ends
    cases ends
  · obtain ⟨op, member, here⟩ := always state early (by rw [first])
    exact ⟨op, List.mem_append_left _ member, here⟩

theorem Always.behind {program : Program I A} {after : A → Program I B}
    (always : ∀ value, Always handler P (after value)) : Always handler P (program >>= after) := by
  intro state value ends
  rw [exec_bind] at ends
  rw [performed_bind]
  rcases first : exec handler program state with ⟨why | early, middle⟩
  · rw [first] at ends
    cases ends
  · rw [first] at ends
    obtain ⟨op, member, here⟩ := always early middle value ends
    exact ⟨op, List.mem_append_right _ member, here⟩

theorem always_of_stops {program : Program I A} (stops : ∀ state value, (exec handler program state).1 ≠ .ok value) :
    Always handler P program :=
  fun state value ends => absurd ends (stops state value)

theorem Twin.learn {Field : Type} {touches : I.Op → Field → Prop} {agrees : Field → State → State → Prop}
    {K L : State → State → Prop} {first second : Program I A} {field : Field}
    (twin : Twin handler touches agrees K first second L) (always : Always handler (touches · field) first) :
    Twin handler touches agrees K first second fun s t => L s t ∧ agrees field s t := by
  intro s t related
  obtain ⟨outcome, operations, settled, ends⟩ := twin s t related
  exact ⟨outcome, operations, settled, fun value ok => ⟨ends value ok, settled field (.inl (always s value ok))⟩⟩

end Always

end Foundation
