import HomelabApps.QrManager.QrCodeService.Labels

namespace HomelabApps.QrManager

open HomelabApps.Library.Transition

variable {baseURL slug : String} {s : Manager} {events : List Event} {e : Entry} {entity : QrCodeEntity}
  {own earlier : List Entry} {stage : Stage}

structure Entry.Collided (entity : QrCodeEntity) (e : Entry) : Prop where
  call : ∃ slug ∈ e.found.map (·.slug), e.call = .create entity slug
  delivery : e.delivery = .answered
  left : e.left = e.found

inductive Allocated (baseURL : String) (entity : QrCodeEntity) : List Entry → Except Exception Result → Prop
  | stored {earlier : List Entry} {e : Entry} {slug : String} (hearlier : ∀ e ∈ earlier, e.Collided entity)
      (hfresh : slug ∉ e.found.map (·.slug)) (hleft : e.left = e.found ++ [entity.code e.id slug]) :
      Allocated baseURL entity (earlier ++ [e]) (.ok (.response (toResponse baseURL (entity.code e.id slug))))
  | exhausted {own : List Entry} (hlength : own.length = INSERT_ATTEMPTS) (hown : ∀ e ∈ own, e.Collided entity) :
      Allocated baseURL entity own (.error slugsExhausted)
  | failed {earlier : List Entry} {e : Entry} {failure : Failure} (hearlier : ∀ e ∈ earlier, e.Collided entity)
      (hanswer : e.answer = .failed failure) (hfailure : isSlugCollision failure = false) :
      Allocated baseURL entity (earlier ++ [e]) (.error (.failure failure))

theorem isSlugCollision_outage (outage : Outage) : isSlugCollision outage.failure = false := by
  cases outage with
  | brokenCircuit => rfl
  | taskCancelled => rfl
  | other code => simp [Outage.failure, isSlugCollision]

theorem insert_cases (hcall : e.call = .create entity slug) :
    (slug ∉ e.found.map (·.slug) ∧ e.left = e.found ++ [entity.code e.id slug] ∧
        e.answer = .code (some (entity.code e.id slug))) ∨
      (∃ failure, isSlugCollision failure = true ∧ e.answer = .failed failure ∧ e.Collided entity) ∨
      ∃ failure, isSlugCollision failure = false ∧ e.answer = .failed failure := by
  cases hdelivery : e.delivery with
  | lost outage =>
    exact .inr (.inr ⟨outage.failure, isSlugCollision_outage outage, by rw [Entry.answer, hdelivery]⟩)
  | rejected outage =>
    exact .inr (.inr ⟨outage.failure, isSlugCollision_outage outage, by rw [Entry.answer, hdelivery]⟩)
  | answered =>
    have hanswer : e.answer = (e.call.execute e.id e.found).2 := by rw [Entry.answer, hdelivery]
    have hleft : e.left = (e.call.execute e.id e.found).1 := by
      simp only [Entry.left, Entry.carried, hdelivery, if_true]
    rw [hcall] at hanswer hleft
    simp only [Call.execute] at hanswer hleft
    split_ifs at hanswer hleft with hid hslug
    · exact .inr (.inr ⟨_, by decide, hanswer⟩)
    · exact .inr (.inl ⟨_, by decide, hanswer, ⟨slug, hslug, hcall⟩, hdelivery, hleft⟩)
    · exact .inl ⟨hslug, hleft, hanswer⟩

def Allocating (baseURL : String) (entity : QrCodeEntity) (own : List Entry) : Stage → Prop
  | .waiting handler none =>
    own.length < INSERT_ATTEMPTS ∧ (∀ e ∈ own, e.Collided entity) ∧ ∃ slug, handler = .create entity own.length slug
  | .waiting handler (some answer) =>
    ∃ earlier e slug, own = earlier ++ [e] ∧ earlier.length < INSERT_ATTEMPTS ∧ (∀ e ∈ earlier, e.Collided entity) ∧
      handler = .create entity earlier.length slug ∧ e.call = .create entity slug ∧ answer = e.answer
  | .settled outcome => own.length ≤ INSERT_ATTEMPTS ∧ Allocated baseURL entity own outcome

theorem collided_snoc (hearlier : ∀ e ∈ earlier, e.Collided entity) (he : e.Collided entity) :
    ∀ other ∈ earlier ++ [e], other.Collided entity := by
  intro other hother
  obtain hother | hother := List.mem_append.1 hother
  · exact hearlier other hother
  · exact List.mem_singleton.1 hother ▸ he

theorem allocating_of_served {request : QrCodeCreateRequest} (h : Served baseURL (.create request) own stage) :
    Allocating baseURL request.entity own stage := by
  induction h with
  | start hgenerated => exact ⟨by decide, List.forall_mem_nil _, _, rfl⟩
  | @dealt calls handler e h hcall ih =>
    obtain ⟨hlength, hown, slug, rfl⟩ := ih
    exact ⟨calls, e, slug, rfl, hlength, hown, rfl, hcall, rfl⟩
  | @resumed calls handler answer stage generated aborted h hgenerated hresume ih =>
    obtain ⟨earlier, e, slug, rfl, hlength, hearlier, rfl, hcall, rfl⟩ := ih
    simp only [Handler.resume] at hresume
    have hle : (earlier ++ [e]).length ≤ INSERT_ATTEMPTS := by
      rw [List.length_append]
      exact hlength
    obtain ⟨hfresh, hleft, hanswer⟩ | ⟨failure, hcollision, hanswer, hcollided⟩ | ⟨failure, hcollision, hanswer⟩ :=
      insert_cases hcall
    · rw [hanswer, QrCodeService.create] at hresume
      cases hresume
      exact ⟨hle, .stored hearlier hfresh hleft⟩
    · rw [hanswer, QrCodeService.create, if_pos hcollision] at hresume
      split_ifs at hresume with hmore
      · cases hresume
        rw [Allocating, List.length_append]
        exact ⟨hmore, collided_snoc hearlier hcollided, generated, rfl⟩
      · cases hresume
        refine ⟨hle, .exhausted (Nat.le_antisymm hle ?_) (collided_snoc hearlier hcollided)⟩
        rw [List.length_append]
        exact Nat.le_of_not_lt hmore
    · rw [hanswer, QrCodeService.create, hcollision] at hresume
      cases hresume
      exact ⟨hle, .failed hearlier hanswer hcollision⟩

theorem countP_collided (hown : ∀ e ∈ own, e.Collided entity) : own.countP (fun e => e.left ≠ e.found) = 0 := by
  rw [List.countP_eq_zero]
  intro e he
  simpa using (hown e he).left

theorem countP_snoc (hearlier : ∀ e ∈ earlier, e.Collided entity) :
    (earlier ++ [e]).countP (fun e => e.left ≠ e.found) ≤ 1 := by
  rw [List.countP_append, countP_collided hearlier, Nat.zero_add]
  exact List.countP_le_length

theorem countP_allocating (h : Allocating baseURL entity own stage) :
    own.countP (fun e => e.left ≠ e.found) ≤ 1 := by
  cases stage with
  | waiting handler answer =>
    cases answer with
    | none => exact countP_collided h.2.1 ▸ Nat.zero_le 1
    | some answer =>
      obtain ⟨earlier, e, slug, rfl, hlength, hearlier, -⟩ := h
      exact countP_snoc hearlier
  | settled outcome =>
    cases h.2 with
    | stored hearlier hfresh hleft => exact countP_snoc hearlier
    | exhausted hlength hown => exact countP_collided hown ▸ Nat.zero_le 1
    | failed hearlier hanswer hfailure => exact countP_snoc hearlier

theorem length_allocating (h : Allocating baseURL entity own stage) : own.length ≤ INSERT_ATTEMPTS := by
  cases stage with
  | waiting handler answer =>
    cases answer with
    | none => exact Nat.le_of_lt h.1
    | some answer =>
      obtain ⟨earlier, e, slug, rfl, hlength, -⟩ := h
      rw [List.length_append]
      exact hlength
  | settled outcome => exact h.1

theorem create_allocates {i : Nat} {request : QrCodeCreateRequest}
    (hrun : run (Manager.step baseURL) {} events = some s) (hi : s.tasks[i]? = some ⟨.create request, stage⟩) :
    (s.calls i).length ≤ INSERT_ATTEMPTS ∧ (s.calls i).countP (fun e => e.left ≠ e.found) ≤ 1 ∧
      ∀ outcome, stage = .settled outcome → Allocated baseURL request.entity (s.calls i) outcome := by
  have h : Allocating baseURL request.entity (s.calls i) stage :=
    allocating_of_served ((sound_run hrun sound_default).served i _ hi)
  refine ⟨length_allocating h, countP_allocating h, ?_⟩
  rintro outcome rfl
  exact h.2

theorem create_allocates_again :
    ∃ s own,
      run (Manager.step "http://qr.home") {}
        [.request (.create ⟨"https://one", "One", .plant⟩) "x7k2", .deal 0 "a" .answered,
          .request (.create ⟨"https://two", "Two", .other⟩) "x7k2", .deal 1 "b" .answered, .resume 1 "b0t2" false,
          .deal 1 "b" .answered, .resume 1 "0000" false] = some s ∧
      s.calls 1 = own ∧ own.length = 2 ∧
      Allocated "http://qr.home" ⟨"https://two", "Two", .other, true⟩ own
        (.ok (.response ⟨⟨"b", "b0t2", "https://two", "Two", .other, true⟩, "http://qr.home/b0t2"⟩)) := by
  obtain ⟨s, hrun, hlength, hi⟩ : ∃ s, run (Manager.step "http://qr.home") {}
      [.request (.create ⟨"https://one", "One", .plant⟩) "x7k2", .deal 0 "a" .answered,
        .request (.create ⟨"https://two", "Two", .other⟩) "x7k2", .deal 1 "b" .answered, .resume 1 "b0t2" false,
        .deal 1 "b" .answered, .resume 1 "0000" false] = some s ∧ (s.calls 1).length = 2 ∧
      s.tasks[1]? = some ⟨.create ⟨"https://two", "Two", .other⟩, .settled
        (.ok (.response ⟨⟨"b", "b0t2", "https://two", "Two", .other, true⟩, "http://qr.home/b0t2"⟩))⟩ :=
    ⟨_, rfl, rfl, rfl⟩
  exact ⟨s, _, hrun, rfl, hlength, (create_allocates hrun hi).2.2 _ rfl⟩

end HomelabApps.QrManager
