import ContractBindings.Proofs.Run.Fetching

/-!
# What runs ask and tell

A run asks nodes and tells notices, and the world keeps both in the order in which they came
(`Log`). To say of all of them what holds of each, and of errors and values what holds of these, one
goes along the steps: `Keeps` puts the four together, so that what is known of the value of a step
is there for what the next one asks, tells, fails with and gives.
-/

namespace ContractBindings

variable {ε ε' α β : Type} {asks : NodeRequest → Prop} {tells : Notice → Prop}
  {world middle after : World} {current : Files.Location}

/-- Between two worlds, only requests of one class were sent and only notices of another told. -/
structure Log (asks : NodeRequest → Prop) (tells : Notice → Prop) (before after : World) :
    Prop where
  requests : ∃ sent, after.requests = before.requests ++ sent ∧ ∀ request ∈ sent, asks request
  notices : ∃ told, after.notices = before.notices ++ told ∧ ∀ notice ∈ told, tells notice

namespace Log

theorem of_eq (hrequests : after.requests = world.requests)
    (hnotices : after.notices = world.notices) : Log asks tells world after :=
  ⟨⟨[], by rw [hrequests, List.append_nil], List.forall_mem_nil _⟩,
    ⟨[], by rw [hnotices, List.append_nil], List.forall_mem_nil _⟩⟩

theorem refl (world : World) : Log asks tells world world :=
  of_eq rfl rfl

theorem trans (h : Log asks tells world middle) (h' : Log asks tells middle after) :
    Log asks tells world after := by
  obtain ⟨⟨sent, hsent, hasks⟩, told, htold, htells⟩ := h
  obtain ⟨⟨sent', hsent', hasks'⟩, told', htold', htells'⟩ := h'
  refine ⟨⟨sent ++ sent', ?_, List.forall_mem_append.2 ⟨hasks, hasks'⟩⟩,
    told ++ told', ?_, List.forall_mem_append.2 ⟨htells, htells'⟩⟩
  · rw [hsent', hsent, List.append_assoc]
  · rw [htold', htold, List.append_assoc]

/-- Where no request may be sent, none was. -/
theorem requests_eq (h : Log (fun _ ↦ False) tells world after) :
    after.requests = world.requests := by
  obtain ⟨sent, hsent, hnone⟩ := h.requests
  rw [hsent, List.eq_nil_iff_forall_not_mem.2 hnone, List.append_nil]

end Log

/-- Whatever the world is like, a computation asks and tells nothing but what it may, and its errors
and its values are in classes of their own. -/
structure Keeps (asks : NodeRequest → Prop) (tells : Notice → Prop) (fails : ε → Prop)
    (gives : α → Prop) (x : ExceptT ε (StateM World) α) : Prop where
  log : ∀ world, Log asks tells world (x.run world).2
  error : ∀ {world error after}, x.run world = (.error error, after) → fails error
  value : ∀ {world a after}, x.run world = (.ok a, after) → gives a

section Keeps

variable {fails : ε → Prop} {fails' : ε' → Prop} {gives : α → Prop} {gives' : β → Prop}
  {x : ExceptT ε (StateM World) α} {f : α → ExceptT ε (StateM World) β}

theorem Keeps.bind (hx : Keeps asks tells fails gives x)
    (hf : ∀ a, gives a → Keeps asks tells fails gives' (f a)) :
    Keeps asks tells fails gives' (x >>= f) := by
  -- Where a step begins and whether it is come to at all, its first part says.
  have hstep : ∀ world, (∃ error after, x.run world = (.error error, after) ∧
      (x >>= f).run world = (.error error, after)) ∨
      ∃ a middle, x.run world = (.ok a, middle) ∧ (x >>= f).run world = (f a).run middle := by
    intro world
    rcases hrun : x.run world with ⟨error | a, middle⟩
    · exact .inl ⟨error, middle, rfl, run_bind_of_error hrun⟩
    · exact .inr ⟨a, middle, rfl, run_bind_of_ok hrun⟩
  refine ⟨fun world ↦ ?_, fun {world error after} h ↦ ?_, fun {world b after} h ↦ ?_⟩
  · have hlog := hx.log world
    rcases hstep world with ⟨error, after, hrun, hbind⟩ | ⟨a, middle, hrun, hbind⟩ <;>
      rw [hbind] <;> rw [hrun] at hlog
    · exact hlog
    · exact hlog.trans ((hf a (hx.value hrun)).log middle)
  · rcases hstep world with ⟨error', after', hrun, hbind⟩ | ⟨a, middle, hrun, hbind⟩ <;>
      rw [hbind] at h
    · cases h
      exact hx.error hrun
    · exact (hf a (hx.value hrun)).error h
  · rcases hstep world with ⟨error, after', hrun, hbind⟩ | ⟨a, middle, hrun, hbind⟩ <;>
      rw [hbind] at h
    · cases h
    · exact (hf a (hx.value hrun)).value h

theorem Keeps.adapt {g : ε → ε'} (hx : Keeps asks tells fails gives x)
    (hg : ∀ error, fails error → fails' (g error)) : Keeps asks tells fails' gives (x.adapt g) := by
  refine ⟨hx.log, fun {world error after} h ↦ ?_, fun h ↦ hx.value (run_eq_of_run_adapt_eq_ok h)⟩
  rw [run_adapt] at h
  rcases hrun : x.run world with ⟨error' | a, middle⟩ <;> rw [hrun] at h <;> cases h
  exact hg error' (hx.error hrun)

theorem keeps_result {result : Except ε α} (herror : ∀ error, result = .error error → fails error)
    (hvalue : ∀ a, result = .ok a → gives a) :
    Keeps asks tells fails gives (ExceptT.mk (pure result)) :=
  ⟨fun world ↦ .refl world, fun h ↦ herror _ (Prod.mk.inj h).1, fun h ↦ hvalue _ (Prod.mk.inj h).1⟩

theorem keeps_pure {a : α} (ha : gives a) :
    Keeps asks tells fails gives (pure a : ExceptT ε (StateM World) α) :=
  keeps_result nofun fun _ h ↦ Except.ok.inj h ▸ ha

/-- A computation that leaves the log as it is. -/
theorem keeps_of_eq (h : ∀ world, (x.run world).2.requests = world.requests ∧
      (x.run world).2.notices = world.notices) :
    Keeps asks tells (fun _ ↦ True) (fun _ ↦ True) x :=
  ⟨fun world ↦ .of_eq (h world).1 (h world).2, fun _ ↦ trivial, fun _ ↦ trivial⟩

theorem keeps_tell {notice : Notice} (h : tells notice) :
    Keeps asks tells fails (fun _ ↦ True)
      (liftM ((World.host current).tell notice) : ExceptT ε (StateM World) Unit) :=
  ⟨fun _ ↦ ⟨⟨[], (List.append_nil _).symm, List.forall_mem_nil _⟩,
    ⟨[notice], rfl, List.forall_mem_singleton.2 h⟩⟩, nofun, fun _ ↦ trivial⟩

theorem keeps_ask {request : NodeRequest} (h : asks request) :
    Keeps asks tells fails (fun _ ↦ True)
      (liftM ((World.host current).ask request) : ExceptT ε (StateM World) NodeReply) :=
  ⟨fun _ ↦ ⟨⟨[request], rfl, List.forall_mem_singleton.2 h⟩,
    ⟨[], (List.append_nil _).symm, List.forall_mem_nil _⟩⟩, nofun, fun _ ↦ trivial⟩

theorem Keeps.mapM (hf : ∀ a, Keeps asks tells fails (fun _ ↦ True) (f a)) (l : List α) :
    Keeps asks tells fails (fun _ ↦ True) (l.mapM f) := by
  induction l with
  | nil => exact keeps_pure trivial
  | cons a l ih =>
    rw [List.mapM_cons]
    exact (hf a).bind fun b _ ↦ ih.bind fun bs _ ↦ keeps_pure trivial

/-- A loop that goes through a list to its end. -/
theorem Keeps.forIn {γ : Type} {body : γ → PUnit → ExceptT ε (StateM World) (ForInStep PUnit)}
    (hbody : ∀ c u, Keeps asks tells fails (fun _ ↦ True) (body c u)) (l : List γ) (u : PUnit) :
    Keeps asks tells fails (fun _ ↦ True) (forIn l u body) := by
  induction l generalizing u with
  | nil => exact keeps_pure trivial
  | cons c l ih =>
    rw [List.forIn_cons]
    refine (hbody c u).bind fun next _ ↦ ?_
    rcases next with u' | u'
    · exact keeps_pure trivial
    · exact ih u'

end Keeps

end ContractBindings
