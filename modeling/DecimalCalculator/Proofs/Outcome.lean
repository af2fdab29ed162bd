/-
Outcomes that are results or errors.

A sequence of steps succeeds exactly if every step does, and fails as the first step that
fails.  Errors can be renamed before or after the steps are put together.  Two sequences
of steps that concur step by step end alike.
-/

import DecimalCalculator.Error

namespace DecimalCalculator

variable {α β ε : Type}

theorem bind_eq_ok_iff {outcome : Except ε α} {next : α → Except ε β} {result : β} :
    (outcome >>= next) = .ok result ↔
      ∃ value, outcome = .ok value ∧ next value = .ok result := by
  cases outcome with
  | error error =>
      constructor
      · intro impossible
        cases impossible
      · rintro ⟨value, impossible, _⟩
        cases impossible
  | ok value =>
      constructor
      · exact fun same => ⟨value, rfl, same⟩
      · rintro ⟨found, stands, same⟩
        cases stands
        exact same

theorem bind_eq_error_iff {outcome : Except ε α} {next : α → Except ε β} {error : ε} :
    (outcome >>= next) = .error error ↔
      outcome = .error error ∨ ∃ value, outcome = .ok value ∧ next value = .error error := by
  cases outcome with
  | error earlier => simp [bind, Except.bind]
  | ok value => simp [bind, Except.bind]

theorem exists_bind_eq_ok {outcome : Except ε α} {next : α → Except ε β}
    (succeeds : ∃ value, outcome = .ok value)
    (continues : ∀ value, outcome = .ok value → ∃ result, next value = .ok result) :
    ∃ result, (outcome >>= next) = .ok result := by
  obtain ⟨value, found⟩ := succeeds
  obtain ⟨result, reached⟩ := continues value found
  exact ⟨result, bind_eq_ok_iff.mpr ⟨value, found, reached⟩⟩

theorem mapError_eq_ok_iff {ε' : Type} {outcome : Except ε α} {rename : ε → ε'} {result : α} :
    outcome.mapError rename = .ok result ↔ outcome = .ok result := by
  cases outcome with
  | error error =>
      constructor
      · intro impossible
        cases impossible
      · intro impossible
        cases impossible
  | ok value =>
      constructor
      · intro same
        exact congrArg Except.ok (Except.ok.inj same)
      · intro same
        exact congrArg Except.ok (Except.ok.inj same)

theorem mapError_eq_error_iff {ε' : Type} {outcome : Except ε α} {rename : ε → ε'} {error : ε'} :
    outcome.mapError rename = .error error ↔
      ∃ cause, outcome = .error cause ∧ rename cause = error := by
  cases outcome with
  | error cause =>
      constructor
      · intro same
        exact ⟨cause, rfl, Except.error.inj same⟩
      · rintro ⟨found, stands, same⟩
        cases stands
        exact congrArg Except.error same
  | ok value =>
      constructor
      · intro impossible
        cases impossible
      · rintro ⟨cause, impossible, _⟩
        cases impossible

theorem map_eq_ok_iff {outcome : Except ε α} {transform : α → β} {result : β} :
    transform <$> outcome = .ok result ↔
      ∃ value, outcome = .ok value ∧ transform value = result := by
  cases outcome with
  | error error => exact iff_of_false nofun nofun
  | ok value =>
      constructor
      · intro same
        exact ⟨value, rfl, Except.ok.inj same⟩
      · rintro ⟨found, stands, same⟩
        cases stands
        exact congrArg Except.ok same

theorem check_bind_eq_ok_iff {check : Except ε Unit} {next : Except ε β} {result : β} :
    (check >>= fun _ => next) = .ok result ↔ check = .ok () ∧ next = .ok result := by
  rw [bind_eq_ok_iff]
  constructor
  · rintro ⟨_, passed, same⟩
    exact ⟨passed, same⟩
  · rintro ⟨passed, same⟩
    exact ⟨(), passed, same⟩

theorem throw_bind_ne_ok {error : ε} {next : Except ε β} {result : β} :
    ¬((throw error : Except ε Unit) >>= fun _ => next) = .ok result := by
  intro impossible
  cases impossible

theorem mapM_congr {first second : α → Except ε β} {items : List α}
    (same : ∀ item ∈ items, first item = second item) : items.mapM first = items.mapM second := by
  induction items with
  | nil => rfl
  | cons item rest ih =>
      rw [List.mapM_cons, List.mapM_cons, same item List.mem_cons_self,
        ih fun other member => same other (List.mem_cons_of_mem item member)]

theorem mapM_mapError {ε' : Type} {inner : α → Except ε β} {outer : α → Except ε' β}
    {rename : ε → ε'} {items : List α}
    (same : ∀ item ∈ items, outer item = (inner item).mapError rename) :
    items.mapM outer = (items.mapM inner).mapError rename := by
  induction items with
  | nil => rfl
  | cons item rest ih =>
      have later := ih fun other member => same other (List.mem_cons_of_mem item member)
      rw [List.mapM_cons, List.mapM_cons, same item List.mem_cons_self, later]
      cases inner item with
      | error error => rfl
      | ok first =>
          cases rest.mapM inner with
          | error error => rfl
          | ok others => rfl

/-! ### Overflow -/

section Overflow

variable {fits : Prop} [Decidable fits] {result value : α}

theorem unlessOverflow_of (holds : fits) : unlessOverflow fits result = .ok result :=
  if_pos holds

theorem unlessOverflow_of_not (breaks : ¬fits) :
    unlessOverflow fits result = .error .overflow :=
  if_neg breaks

theorem unlessOverflow_eq_ok_iff : unlessOverflow fits result = .ok value ↔ fits ∧ result = value := by
  by_cases holds : fits
  · rw [unlessOverflow_of holds, Except.ok.injEq, and_iff_right holds]
  · rw [unlessOverflow_of_not holds]
    exact iff_of_false nofun fun both => holds both.1

theorem unlessOverflow_eq_error_iff {error : EvaluationError} :
    unlessOverflow fits result = .error error ↔ ¬fits ∧ error = .overflow := by
  by_cases holds : fits
  · rw [unlessOverflow_of holds]
    exact iff_of_false nofun fun both => both.1 holds
  · rw [unlessOverflow_of_not holds, Except.error.injEq, and_iff_right holds, eq_comm]

theorem map_unlessOverflow {transform : α → β} :
    transform <$> unlessOverflow fits result = unlessOverflow fits (transform result) := by
  by_cases holds : fits
  · rw [unlessOverflow_of holds, unlessOverflow_of holds]
    rfl
  · rw [unlessOverflow_of_not holds, unlessOverflow_of_not holds]
    rfl

theorem unlessOverflow_bind {more : α → Prop} [DecidablePred more] {next : α → β} :
    (unlessOverflow fits result >>= fun value => unlessOverflow (more value) (next value)) =
      unlessOverflow (fits ∧ more result) (next result) := by
  by_cases holds : fits
  · rw [unlessOverflow_of holds]
    change unlessOverflow (more result) (next result) = _
    by_cases further : more result
    · rw [unlessOverflow_of further, unlessOverflow_of ⟨holds, further⟩]
    · rw [unlessOverflow_of_not further, unlessOverflow_of_not fun both => further both.2]
  · rw [unlessOverflow_of_not holds, unlessOverflow_of_not fun both => holds both.1]
    rfl

theorem unlessOverflow_congr {others : Prop} [Decidable others] (same : fits ↔ others)
    (equal : fits → result = value) :
    unlessOverflow fits result = unlessOverflow others value := by
  by_cases holds : fits
  · rw [unlessOverflow_of holds, unlessOverflow_of (same.mp holds), equal holds]
  · rw [unlessOverflow_of_not holds, unlessOverflow_of_not (mt same.mpr holds)]

theorem unlessOverflow_bind_eq {result : α} {next : α → Outcome β} :
    (unlessOverflow fits result >>= next) = (requireWords fits >>= fun _ => next result) := by
  by_cases holds : fits
  · rw [requireWords, unlessOverflow_of holds, unlessOverflow_of holds]
    rfl
  · rw [requireWords, unlessOverflow_of_not holds, unlessOverflow_of_not holds]
    rfl

theorem requireWords_of (holds : fits) : requireWords fits = .ok () :=
  unlessOverflow_of holds

theorem requireWords_of_not (breaks : ¬fits) : requireWords fits = .error .overflow :=
  unlessOverflow_of_not breaks

theorem requireWords_bind_of {next : Outcome β} (holds : fits) :
    (requireWords fits >>= fun _ => next) = next := by
  rw [requireWords_of holds]
  rfl

theorem requireWords_bind_of_not {next : Outcome β} (breaks : ¬fits) :
    (requireWords fits >>= fun _ => next) = .error .overflow := by
  rw [requireWords_of_not breaks]
  rfl

theorem requireWords_bind_eq_ok_iff {next : Outcome β} {last : β} :
    (requireWords fits >>= fun _ => next) = .ok last ↔ fits ∧ next = .ok last := by
  rw [check_bind_eq_ok_iff, requireWords, unlessOverflow_eq_ok_iff, and_iff_left rfl]

end Overflow

/-! ### Faults -/

section Faults

def fault? : Except ε α → Option ε
  | .ok _ => none
  | .error error => some error

/-- The error of the first item of a list at which a step fails. -/
def firstFault? (step : α → Except ε β) (items : List α) : Option ε :=
  items.findSome? fun item => fault? (step item)

variable {outcome : Except ε α} {step : α → Except ε β} {items : List α} {error : ε}

theorem fault?_eq_some_iff : fault? outcome = some error ↔ outcome = .error error := by
  cases outcome with
  | error fault => simp [fault?]
  | ok value => simp [fault?]

theorem fault?_eq_none_iff : fault? outcome = none ↔ ∃ value, outcome = .ok value := by
  cases outcome with
  | error fault => simp [fault?]
  | ok value => simp [fault?]

theorem fault?_map (transform : α → β) (outcome : Except ε α) :
    fault? (transform <$> outcome) = fault? outcome := by
  cases outcome with
  | error fault => rfl
  | ok value => rfl

theorem fault?_bind_of_fault {next : α → Except ε β} (failed : fault? outcome = some error) :
    outcome >>= next = .error error := by
  rw [fault?_eq_some_iff.mp failed]
  rfl

theorem firstFault?_cons (item : α) (rest : List α) :
    firstFault? step (item :: rest) = (fault? (step item)).or (firstFault? step rest) := by
  rw [firstFault?, List.findSome?_cons]
  cases fault? (step item) with
  | none => rfl
  | some fault => rfl

theorem firstFault?_eq_none_iff :
    firstFault? step items = none ↔ ∀ item ∈ items, ∃ result, step item = .ok result := by
  simp only [firstFault?, List.findSome?_eq_none_iff, fault?_eq_none_iff]

theorem firstFault?_eq_some_iff :
    firstFault? step items = some error ↔
      ∃ before item after, items = before ++ item :: after ∧
        (∀ earlier ∈ before, ∃ result, step earlier = .ok result) ∧ step item = .error error := by
  simp only [firstFault?, List.findSome?_eq_some_iff, fault?_eq_some_iff, fault?_eq_none_iff]
  simp only [and_comm]

theorem fault?_mapM (step : α → Except ε β) (items : List α) :
    fault? (items.mapM step) = firstFault? step items := by
  induction items with
  | nil => rfl
  | cons item rest ih =>
      rw [List.mapM_cons, firstFault?_cons, ← ih]
      cases step item with
      | error fault => rfl
      | ok first =>
          cases rest.mapM step with
          | error fault => rfl
          | ok others => rfl

end Faults

/-! ### Outcomes of two computations -/

/-- Two computations concur: both have results, which are related, or both fail for the
same kind of reason.  A computation that refuses an exponent as too large, or is broken off
because a word overflows, concurs with any other one. -/
inductive Concur {α β : Type} (related : α → β → Prop) : Outcome α → Outcome β → Prop where
  | ok {first : α} {second : β} (holds : related first second) :
      Concur related (.ok first) (.ok second)
  | error {first second : EvaluationError} (alike : first.ctorIdx = second.ctorIdx) :
      Concur related (.error first) (.error second)
  | leftTooLarge (exponent : Int) (outcome : Outcome β) :
      Concur related (.error (.exponentTooLarge exponent)) outcome
  | rightTooLarge (outcome : Outcome α) (exponent : Int) :
      Concur related outcome (.error (.exponentTooLarge exponent))
  | leftOverflow (outcome : Outcome β) : Concur related (.error .overflow) outcome
  | rightOverflow (outcome : Outcome α) : Concur related outcome (.error .overflow)

namespace Concur

variable {α β γ δ : Type} {related : α → β → Prop} {outcome : Outcome α} {other : Outcome β}

theorem checked {fits fits' : Prop} [Decidable fits] [Decidable fits'] {first : α} {second : β}
    (holds : fits → fits' → related first second) :
    Concur related (unlessOverflow fits first) (unlessOverflow fits' second) := by
  by_cases left : fits
  · by_cases right : fits'
    · rw [unlessOverflow_of left, unlessOverflow_of right]
      exact .ok (holds left right)
    · rw [unlessOverflow_of_not right]
      exact .rightOverflow _
  · rw [unlessOverflow_of_not left]
    exact .leftOverflow _

theorem requireWords {fits fits' : Prop} [Decidable fits] [Decidable fits']
    {later : γ → δ → Prop} {next : Outcome γ} {following : Outcome δ}
    (goesOn : fits → fits' → Concur later next following) :
    Concur later (requireWords fits >>= fun _ => next)
      (requireWords fits' >>= fun _ => following) := by
  by_cases left : fits
  · by_cases right : fits'
    · rw [requireWords_bind_of left, requireWords_bind_of right]
      exact goesOn left right
    · rw [requireWords_bind_of_not right]
      exact .rightOverflow _
  · rw [requireWords_bind_of_not left]
    exact .leftOverflow _

theorem of_eq {first second : Outcome α} (same : first = second) : Concur Eq first second := by
  subst same
  cases first with
  | error fault => exact .error rfl
  | ok value => exact .ok rfl

theorem mono {weaker : α → β → Prop} (concur : Concur related outcome other)
    (implies : ∀ first second, related first second → weaker first second) :
    Concur weaker outcome other := by
  cases concur with
  | ok holds => exact .ok (implies _ _ holds)
  | error alike => exact .error alike
  | leftTooLarge exponent => exact .leftTooLarge exponent _
  | rightTooLarge outcome exponent => exact .rightTooLarge _ exponent
  | leftOverflow outcome => exact .leftOverflow _
  | rightOverflow outcome => exact .rightOverflow _

theorem bind {later : γ → δ → Prop} {next : α → Outcome γ} {following : β → Outcome δ}
    (concur : Concur related outcome other)
    (step : ∀ first second, related first second → outcome = .ok first → other = .ok second →
      Concur later (next first) (following second)) :
    Concur later (outcome >>= next) (other >>= following) := by
  cases concur with
  | ok holds => exact step _ _ holds rfl rfl
  | error alike => exact .error alike
  | leftTooLarge exponent => exact .leftTooLarge exponent _
  | rightTooLarge outcome exponent => exact .rightTooLarge _ exponent
  | leftOverflow outcome => exact .leftOverflow _
  | rightOverflow outcome => exact .rightOverflow _

theorem bind_eq {later : γ → δ → Prop} {first second : Outcome α} {next : α → Outcome γ}
    {following : α → Outcome δ} (concur : Concur Eq first second)
    (step : ∀ result, first = .ok result → second = .ok result →
      Concur later (next result) (following result)) :
    Concur later (first >>= next) (second >>= following) := by
  refine concur.bind fun result other same reached reached' => ?_
  subst same
  exact step result reached reached'

theorem map {later : γ → δ → Prop} {transform : α → γ} {change : β → δ}
    (concur : Concur related outcome other)
    (carries : ∀ first second, related first second → later (transform first) (change second)) :
    Concur later (transform <$> outcome) (change <$> other) := by
  cases concur with
  | ok holds => exact .ok (carries _ _ holds)
  | error alike => exact .error alike
  | leftTooLarge exponent => exact .leftTooLarge exponent _
  | rightTooLarge outcome exponent => exact .rightTooLarge _ exponent
  | leftOverflow outcome => exact .leftOverflow _
  | rightOverflow outcome => exact .rightOverflow _

end Concur

/-- Two computations end alike: both have results, which are related, or both fail for the
same kind of reason, whatever data the errors carry. -/
inductive EndAlike {α β : Type} (related : α → β → Prop) : Outcome α → Outcome β → Prop where
  | ok {first : α} {second : β} (holds : related first second) :
      EndAlike related (.ok first) (.ok second)
  | error {first second : EvaluationError} (alike : first.ctorIdx = second.ctorIdx) :
      EndAlike related (.error first) (.error second)

namespace EndAlike

variable {α β γ δ : Type} {related : α → β → Prop} {outcome : Outcome α} {other : Outcome β}

theorem of_forall_ok {related : α → α → Prop}
    (holds : ∀ result, outcome = .ok result → related result result) :
    EndAlike related outcome outcome := by
  cases outcome with
  | error fault => exact .error rfl
  | ok value => exact .ok (holds value rfl)

theorem refl (outcome : Outcome α) : EndAlike Eq outcome outcome :=
  of_forall_ok fun _ _ => rfl

theorem requireWords {fits fits' : Prop} [Decidable fits] [Decidable fits']
    {later : γ → δ → Prop} {next : Outcome γ} {following : Outcome δ} (same : fits ↔ fits')
    (goesOn : fits → EndAlike later next following) :
    EndAlike later (requireWords fits >>= fun _ => next)
      (requireWords fits' >>= fun _ => following) := by
  by_cases holds : fits
  · rw [requireWords_bind_of holds, requireWords_bind_of (same.mp holds)]
    exact goesOn holds
  · rw [requireWords_bind_of_not holds, requireWords_bind_of_not (mt same.mpr holds)]
    exact .error rfl

theorem bind {later : γ → δ → Prop} {next : α → Outcome γ} {following : β → Outcome δ}
    (alike : EndAlike related outcome other)
    (step : ∀ first second, related first second →
      EndAlike later (next first) (following second)) :
    EndAlike later (outcome >>= next) (other >>= following) := by
  cases alike with
  | ok holds => exact step _ _ holds
  | error same => exact .error same

theorem bind_same {later : γ → δ → Prop} {next : α → Outcome γ} {following : α → Outcome δ}
    (outcome : Outcome α) (step : ∀ result, EndAlike later (next result) (following result)) :
    EndAlike later (outcome >>= next) (outcome >>= following) := by
  refine (refl outcome).bind fun result other same => ?_
  subst same
  exact step result

end EndAlike

/-! ### How a computation may end -/

/-- A computation ends as it may: its result is one of those that are allowed, or its error is. -/
inductive Ends {α : Type} (results : α → Prop) (errors : EvaluationError → Prop) :
    Outcome α → Prop where
  | ok {result : α} (holds : results result) : Ends results errors (.ok result)
  | error {fault : EvaluationError} (holds : errors fault) : Ends results errors (.error fault)

namespace Ends

variable {α β : Type} {results : α → Prop} {errors : EvaluationError → Prop} {outcome : Outcome α}

theorem bind {later : β → Prop} {next : α → Outcome β} (ends : Ends results errors outcome)
    (step : ∀ result, results result → Ends later errors (next result)) :
    Ends later errors (outcome >>= next) := by
  cases ends with
  | ok holds => exact step _ holds
  | error holds => exact .error holds

theorem bind_eq {later : β → Prop} {next : α → Outcome β} (ends : Ends results errors outcome)
    (step : ∀ result, outcome = .ok result → Ends later errors (next result)) :
    Ends later errors (outcome >>= next) := by
  cases ends with
  | ok _ => exact step _ rfl
  | error holds => exact .error holds

theorem map {later : β → Prop} {transform : α → β} (ends : Ends results errors outcome)
    (carries : ∀ result, results result → later (transform result)) :
    Ends later errors (transform <$> outcome) := by
  cases ends with
  | ok holds => exact .ok (carries _ holds)
  | error holds => exact .error holds

theorem requireWords {fits : Prop} [Decidable fits] {next : Outcome α}
    (breaksOff : errors .overflow) (goesOn : fits → Ends results errors next) :
    Ends results errors (requireWords fits >>= fun _ => next) := by
  by_cases holds : fits
  · rw [requireWords_bind_of holds]
    exact goesOn holds
  · rw [requireWords_bind_of_not holds]
    exact .error breaksOff

theorem mono {weaker : α → Prop} (ends : Ends results errors outcome)
    (implies : ∀ result, results result → weaker result) : Ends weaker errors outcome := by
  cases ends with
  | ok holds => exact .ok (implies _ holds)
  | error holds => exact .error holds

theorem widen {more : EvaluationError → Prop} (ends : Ends results errors outcome)
    (implies : ∀ fault, errors fault → more fault) : Ends results more outcome := by
  cases ends with
  | ok holds => exact .ok holds
  | error holds => exact .error (implies _ holds)

theorem of_eq_ok {result : α} (ends : Ends results errors outcome) (reached : outcome = .ok result) :
    results result := by
  subst reached
  cases ends with
  | ok holds => exact holds

theorem of_eq_error {fault : EvaluationError} (ends : Ends results errors outcome)
    (failed : outcome = .error fault) : errors fault := by
  subst failed
  cases ends with
  | error holds => exact holds

end Ends

end DecimalCalculator
