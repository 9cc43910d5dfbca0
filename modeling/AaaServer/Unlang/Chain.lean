import AaaServer.Unlang.Defaults

namespace unlang

variable {Request : Type} {soft : Rcode → Prop} {A : Actions} {c : Modcallable Request}
  {siblings : List (Modcallable Request)} {request request' request'' : Request} {result : Rcode}

/-- The results that do not end a section are the soft ones. -/
def Actions.Sorts (A : Actions) (soft : Rcode → Prop) : Prop :=
  ∀ rcode, (soft rcode → ∃ value, A.action rcode = .priority value) ∧
    (¬ soft rcode → A.action rcode = .MOD_ACTION_RETURN)

/-- No statement has ended the section yet. -/
def StackEntry.Open (soft : Rcode → Prop) (entry : StackEntry) : Prop := soft entry.result ∧ entry.unwind = false

/-- The statement does not end a section, whatever stands before it. -/
def Modcallable.Passes (soft : Rcode → Prop) (c : Modcallable Request) (request request' : Request) : Prop :=
  ∀ locals entry, entry.Open soft → ∃ locals' entry', entry'.Open soft ∧
    modcall_one c locals entry request = .next_sibling locals' entry' request'

/-- The statement ends a section with this result, whatever stands before it. -/
def Modcallable.Ends (soft : Rcode → Prop) (c : Modcallable Request) (request : Request) (result : Rcode)
    (request' : Request) : Prop :=
  ∀ locals entry, entry.Open soft → ∃ entry', entry'.result = result ∧ entry'.unwind = false ∧
    modcall_one c locals entry request = .finish entry' request'

/-- All statements are gone through. -/
def AllPass (soft : Rcode → Prop) (siblings : List (Modcallable Request)) (request request' : Request) : Prop :=
  ∀ locals entry, entry.Open soft → ∃ locals' entry', entry'.Open soft ∧
    modcall_recurse siblings locals entry request = .next_sibling locals' entry' request'

/-- One of the statements ends the section. -/
def OneEnds (soft : Rcode → Prop) (siblings : List (Modcallable Request)) (request : Request) (result : Rcode)
    (request' : Request) : Prop :=
  ∀ locals entry, entry.Open soft → ∃ entry', entry'.result = result ∧ entry'.unwind = false ∧
    modcall_recurse siblings locals entry request = .finish entry' request'

theorem AllPass.nil : AllPass soft [] request request :=
  fun locals entry hentry => ⟨locals, entry, hentry, rfl⟩

theorem AllPass.cons (hone : c.Passes soft request request') (hrest : AllPass soft siblings request' request'') :
    AllPass soft (c :: siblings) request request'' := by
  intro locals entry hentry
  obtain ⟨locals', entry', hentry', hstep⟩ := hone locals entry hentry
  rw [modcall_recurse_cons, hstep]
  exact hrest locals' entry' hentry'

theorem OneEnds.head (hone : c.Ends soft request result request') :
    OneEnds soft (c :: siblings) request result request' := by
  intro locals entry hentry
  obtain ⟨entry', hresult, hunwind, hstep⟩ := hone locals entry hentry
  rw [modcall_recurse_cons, hstep]
  exact ⟨entry', hresult, hunwind, rfl⟩

theorem OneEnds.tail (hone : c.Passes soft request request') (hrest : OneEnds soft siblings request' result request'') :
    OneEnds soft (c :: siblings) request result request'' := by
  intro locals entry hentry
  obtain ⟨locals', entry', hentry', hstep⟩ := hone locals entry hentry
  rw [modcall_recurse_cons, hstep]
  exact hrest locals' entry' hentry'

theorem StackEntry.Open.remember {entry : StackEntry} (hentry : entry.Open soft) (hsoft : soft result) (priority : Nat) :
    (entry.remember result priority).Open soft := by
  unfold StackEntry.remember
  split
  · exact ⟨hsoft, hentry.2⟩
  · exact hentry

private theorem passes_calculate_result (haction : ∃ value, A.action result = .priority value) (hsoft : soft result)
    {locals : Locals} {entry : StackEntry} (hentry : entry.Open soft) :
    ∃ locals' entry', entry'.Open soft ∧
      calculate_result A result locals entry request = .next_sibling locals' entry' request := by
  obtain ⟨value, haction⟩ := haction
  rw [calculate_result_of_priority haction, if_neg (by rw [hentry.2]; exact Bool.false_ne_true)]
  exact ⟨_, _, hentry.remember hsoft value, rfl⟩

private theorem ends_calculate_result (hsorts : A.Sorts soft) (hhard : ¬ soft result) {locals : Locals}
    {entry : StackEntry} (hentry : entry.Open soft) :
    ∃ entry', entry'.result = result ∧ entry'.unwind = false ∧
      calculate_result A result locals entry request = .finish entry' request := by
  rw [calculate_result_of_return ((hsorts result).2 hhard)]
  exact ⟨{ entry with result }, rfl, hentry.2, rfl⟩

section Single

variable {method : Request → Rcode × Request}

theorem Modcallable.Passes.single (haction : ∃ value, A.action (method request).1 = .priority value)
    (hsoft : soft (method request).1) : (MOD_SINGLE A method).Passes soft request (method request).2 :=
  fun _ _ hentry => passes_calculate_result haction hsoft hentry

theorem Modcallable.Ends.single (hsorts : A.Sorts soft) (hhard : ¬ soft (method request).1) :
    (MOD_SINGLE A method).Ends soft request (method request).1 (method request).2 :=
  fun _ _ hentry => ends_calculate_result hsorts hhard hentry

theorem Modcallable.Passes.update (hsorts : A.Sorts soft) (hsoft : soft (method request).1) :
    (MOD_UPDATE A method).Passes soft request (method request).2 :=
  fun _ _ hentry => passes_calculate_result ((hsorts _).1 hsoft) hsoft hentry

end Single

section Children

variable {children : List (Modcallable Request)} {cond : Rcode → Request → Bool × Request}

private theorem children_pass (hsorts : A.Sorts soft) (hchildren : AllPass soft children request request')
    {locals : Locals} {entry : StackEntry} (hentry : entry.Open soft) :
    ∃ locals' entry', entry'.Open soft ∧
      modcall_children A children locals entry request = .next_sibling locals' entry' request' := by
  obtain ⟨_, entry', hentry', hstep⟩ := hchildren {} { result := entry.result } ⟨hentry.1, rfl⟩
  cases children with
  | nil =>
    cases hstep
    exact ⟨locals, entry, hentry, rfl⟩
  | cons child children =>
    rw [modcall_children_cons, hstep, ModStep.entry_next_sibling, ModStep.request_next_sibling]
    exact passes_calculate_result ((hsorts _).1 hentry'.1) hentry'.1 ⟨hentry.1, by simp only [hentry'.2, hentry.2, Bool.or_false]⟩

private theorem children_end (hsorts : A.Sorts soft) (hhard : ¬ soft result)
    (hchildren : OneEnds soft children request result request') {locals : Locals} {entry : StackEntry}
    (hentry : entry.Open soft) :
    ∃ entry', entry'.result = result ∧ entry'.unwind = false ∧
      modcall_children A children locals entry request = .finish entry' request' := by
  obtain ⟨entry', hresult, hunwind, hstep⟩ := hchildren {} { result := entry.result } ⟨hentry.1, rfl⟩
  cases children with
  | nil => cases hstep
  | cons child children =>
    rw [modcall_children_cons, hstep, ModStep.entry_finish, ModStep.request_finish, hresult]
    exact ends_calculate_result hsorts hhard ⟨hentry.1, by simp only [hunwind, hentry.2, Bool.or_false]⟩

theorem Modcallable.Passes.group (hsorts : A.Sorts soft) (hchildren : AllPass soft children request request') :
    (MOD_GROUP A children).Passes soft request request' :=
  fun _ _ hentry => children_pass hsorts hchildren hentry

theorem Modcallable.Ends.group (hsorts : A.Sorts soft) (hhard : ¬ soft result)
    (hchildren : OneEnds soft children request result request') :
    (MOD_GROUP A children).Ends soft request result request' :=
  fun _ _ hentry => children_end hsorts hhard hchildren hentry

theorem Modcallable.Passes.if_false (hcond : ∀ rcode, cond rcode request = (false, request)) :
    (MOD_IF A cond children).Passes soft request request := by
  intro locals entry hentry
  rw [modcall_one, hcond]
  exact ⟨_, entry, hentry, rfl⟩

theorem Modcallable.Passes.if_true (hsorts : A.Sorts soft) (hcond : ∀ rcode, cond rcode request = (true, request))
    (hchildren : AllPass soft children request request') : (MOD_IF A cond children).Passes soft request request' := by
  intro locals entry hentry
  rw [modcall_one, hcond]
  exact children_pass hsorts hchildren hentry

theorem Modcallable.Ends.if_true (hsorts : A.Sorts soft) (hhard : ¬ soft result)
    (hcond : ∀ rcode, cond rcode request = (true, request))
    (hchildren : OneEnds soft children request result request') :
    (MOD_IF A cond children).Ends soft request result request' := by
  intro locals entry hentry
  rw [modcall_one, hcond]
  exact children_end hsorts hhard hchildren hentry

/-- A statement `else` is gone through, taken or not. -/
theorem Modcallable.Passes.else_ (hsorts : A.Sorts soft) (hchildren : AllPass soft children request request) :
    (MOD_ELSE A children).Passes soft request request := by
  intro locals entry hentry
  rw [modcall_one]
  cases locals.was_if with
  | false => exact ⟨_, _, hentry, rfl⟩
  | true =>
    cases locals.if_taken with
    | true => exact ⟨_, _, hentry, rfl⟩
    | false => exact children_pass hsorts hchildren hentry

end Children

/-- A section that is gone through has a soft result. -/
theorem AllPass.modcall {default : Rcode} (hdefault : soft default) (hpass : AllPass soft siblings request request') :
    soft (modcall default siblings request).1 ∧ (modcall default siblings request).2 = request' := by
  obtain ⟨_, entry, hentry, hstep⟩ := hpass {} { result := default } ⟨hdefault, rfl⟩
  rw [unlang.modcall, hstep]
  exact ⟨hentry.1, rfl⟩

/-- A section that one of its statements ends has the result of that one. -/
theorem OneEnds.modcall {default : Rcode} (hdefault : soft default)
    (hends : OneEnds soft siblings request result request') :
    modcall default siblings request = (result, request') := by
  obtain ⟨entry, hresult, _, hstep⟩ := hends {} { result := default } ⟨hdefault, rfl⟩
  rw [unlang.modcall, hstep, ← hresult]
  rfl

/-- A section with one module has the result of the module, where that has a
    priority or ends the section. -/
theorem modcall_single {default : Rcode} {method : Request → Rcode × Request}
    (haction : ∀ rcode, A.action rcode ≠ .MOD_ACTION_REJECT) :
    modcall default [.MOD_SINGLE A method] request = method request := by
  rw [modcall, modcall_recurse_cons, modcall_one]
  cases hresult : A.action (method request).1 with
  | MOD_ACTION_RETURN =>
    rw [calculate_result_of_return hresult]
    rfl
  | MOD_ACTION_REJECT => exact absurd hresult (haction _)
  | priority value =>
    rw [calculate_result_of_priority hresult, if_neg Bool.false_ne_true]
    simp only [StackEntry.remember, if_pos (A.positive hresult), modcall_recurse, ModStep.entry_next_sibling,
      ModStep.request_next_sibling]

end unlang
