import DefiActions.Collaborator

/-!
# Runs

`Run.exec` gives the result of a run and the trace that it leaves, by one
equation for each way a run is made. A `Frame` is what a run may do to the
trace; a run keeps a frame when each of its steps does.
-/

namespace DefiActions.Run

variable {α β : Type}

/-! ## Execution -/

def exec (r : Run α) (t : Trace) : Except Failure α × Trace := r.run.run t

theorem start_eq (r : Run α) : start r = exec r {} := rfl

@[simp] theorem exec_pure (a : α) (t : Trace) : exec (pure a) t = (.ok a, t) := rfl

theorem exec_bind (r : Run α) (f : α → Run β) (t : Trace) :
    exec (r >>= f) t = match exec r t with
      | (.ok a, t') => exec (f a) t'
      | (.error e, t') => (.error e, t') := by
  show (ExceptT.bindCont f (exec r t).1).run (exec r t).2 = _
  rcases exec r t with ⟨a | e, t'⟩ <;> rfl

/-- What a run comes to, apart from the trace. -/
theorem fst_exec_bind (r : Run α) (f : α → Run β) (t : Trace) :
    (exec (r >>= f) t).1 = ((exec r t).1 >>= fun a => (exec (f a) (exec r t).2).1) := by
  rw [exec_bind]
  rcases exec r t with ⟨a | e, t'⟩ <;> rfl

theorem exec_bind_of_ok {r : Run α} {f : α → Run β} {t t' : Trace} {a : α} (h : exec r t = (.ok a, t')) :
    exec (r >>= f) t = exec (f a) t' := by
  rw [exec_bind, h]

theorem exec_bind_of_error {r : Run α} {f : α → Run β} {t t' : Trace} {e : Failure}
    (h : exec r t = (.error e, t')) :
    exec (r >>= f) t = (.error e, t') := by
  rw [exec_bind, h]

theorem exec_bind_eq_ok {r : Run α} {f : α → Run β} {t t'' : Trace} {b : β} :
    exec (r >>= f) t = (.ok b, t'') ↔ ∃ a t', exec r t = (.ok a, t') ∧ exec (f a) t' = (.ok b, t'') := by
  constructor
  · intro h
    cases hx : exec r t with
    | mk x t' =>
      cases x with
      | error e =>
        rw [exec_bind_of_error hx] at h
        cases h
      | ok a =>
        rw [exec_bind_of_ok hx] at h
        exact ⟨a, t', rfl, h⟩
  · rintro ⟨a, t', hr, hf⟩
    rw [exec_bind_of_ok hr, hf]

@[simp] theorem exec_throw (e : Failure) (t : Trace) : exec (throw e : Run α) t = (.error e, t) := rfl

@[simp] theorem exec_fail (e : ActionError) (t : Trace) :
    exec (fail e : Run α) t = (.error (Failure.ofAction e), t) := rfl

@[simp] theorem exec_lift (x : Except Failure α) (t : Trace) : exec (liftM x : Run α) t = (x, t) := by
  cases x <;> rfl

theorem lift_ok_bind (a : α) (f : α → Run β) : ((liftM (Except.ok a : Except Failure α) : Run α) >>= f) = f a := rfl

theorem exec_lift_eq_ok {x : Except Failure α} {t t' : Trace} {a : α} :
    exec (liftM x : Run α) t = (.ok a, t') ↔ x = .ok a ∧ t = t' := by
  rw [exec_lift, Prod.mk.injEq]

theorem exec_lift_bind_eq_ok {x : Except Failure α} {f : α → Run β} {t t' : Trace} {b : β} :
    exec (liftM x >>= f) t = (.ok b, t') ↔ ∃ a, x = .ok a ∧ exec (f a) t = (.ok b, t') := by
  cases x with
  | error e => exact ⟨nofun, nofun⟩
  | ok a =>
    rw [lift_ok_bind]
    constructor
    · intro h
      exact ⟨a, rfl, h⟩
    · rintro ⟨a', ha, h⟩
      rwa [Except.ok.inj ha]

@[simp] theorem exec_report (level : Level) (name : String) (t : Trace) :
    exec (report level name) t = (.ok (), { t with events := t.events ++ [⟨level, name⟩] }) := rfl

@[simp] theorem exec_answer (f : Trace → Except Failure α) (record : Trace → Trace) (t : Trace) :
    exec (answer f record) t = (f t, record t) := exec_lift (f t) (record t)

theorem exec_tryCatch (r : Run α) (h : Failure → Run α) (t : Trace) :
    exec (tryCatch r h) t = match exec r t with
      | (.ok a, t') => (.ok a, t')
      | (.error e, t') => exec (h e) t' := by
  unfold exec ExceptT.run StateT.run
  simp only [tryCatch, tryCatchThe, MonadExceptOf.tryCatch, ExceptT.tryCatch, ExceptT.mk, bind, StateT.bind]
  cases r t with
  | mk x t' => cases x <;> rfl

/-! ## What runs come to -/

def Yields (P : α → Prop) (r : Run α) : Prop := ∀ t a, (exec r t).1 = .ok a → P a

variable {P : α → Prop} {Q : β → Prop}

theorem yields_pure {a : α} (h : P a) : Yields P (pure a : Run α) := by
  intro t b hb
  rwa [← Except.ok.inj hb]

theorem yields_lift {x : Except Failure α} (h : ∀ a, x = .ok a → P a) : Yields P (liftM x : Run α) := by
  intro t a ha
  rw [exec_lift] at ha
  exact h a ha

theorem yields_bind {r : Run α} {f : α → Run β} (hr : Yields P r) (hf : ∀ a, P a → Yields Q (f a)) :
    Yields Q (r >>= f) := by
  intro t b hb
  cases hx : exec r t with
  | mk x t' =>
    cases x with
    | error e =>
      rw [exec_bind_of_error hx] at hb
      cases hb
    | ok a =>
      rw [exec_bind_of_ok hx] at hb
      exact hf a (hr t a (congrArg Prod.fst hx)) t' b hb

/-- What the first run comes to need not matter. -/
theorem yields_after {r : Run α} {f : α → Run β} (hf : ∀ a, Yields Q (f a)) : Yields Q (r >>= f) :=
  yields_bind (fun _ _ _ => trivial : Yields (fun _ => True) r) fun a _ => hf a

theorem yields_tryCatch {r : Run α} {handle : Failure → Run α} (hr : Yields P r) (hh : ∀ e, Yields P (handle e)) :
    Yields P (tryCatch r handle) := by
  intro t a ha
  rw [exec_tryCatch] at ha
  cases hx : exec r t with
  | mk x t' =>
    rw [hx] at ha
    cases x with
    | ok b => exact hr t a ((congrArg Prod.fst hx).trans ha)
    | error e => exact hh e t' a ha

/-! ## Frames -/

structure Frame where
  Rel : Trace → Trace → Prop
  refl : ∀ t, Rel t t
  trans : ∀ {t t' t''}, Rel t t' → Rel t' t'' → Rel t t''

def Keeps (F : Frame) (r : Run α) : Prop := ∀ t, F.Rel t (exec r t).2

variable {F : Frame}

theorem keeps_pure (a : α) : Keeps F (pure a : Run α) := fun t => F.refl t

theorem keeps_throw (e : Failure) : Keeps F (throw e : Run α) := fun t => F.refl t

theorem keeps_fail (e : ActionError) : Keeps F (fail e : Run α) := fun t => F.refl t

theorem keeps_lift (x : Except Failure α) : Keeps F (liftM x : Run α) := by
  intro t
  rw [exec_lift]
  exact F.refl t

theorem keeps_bind {r : Run α} {f : α → Run β} (hr : Keeps F r) (hf : ∀ a, Keeps F (f a)) : Keeps F (r >>= f) := by
  intro t
  have h := hr t
  cases hx : exec r t with
  | mk x t' =>
    rw [hx] at h
    cases x with
    | error e =>
      rw [exec_bind_of_error hx]
      exact h
    | ok a =>
      rw [exec_bind_of_ok hx]
      exact F.trans h (hf a t')

theorem keeps_lift_bind {x : Except Failure α} {f : α → Run β} (hf : ∀ a, Keeps F (f a)) :
    Keeps F ((liftM x : Run α) >>= f) :=
  keeps_bind (keeps_lift x) hf

theorem keeps_ite {p : Prop} [Decidable p] {r s : Run α} (hr : Keeps F r) (hs : Keeps F s) :
    Keeps F (if p then r else s) := by
  split
  · exact hr
  · exact hs

/-! ## Submitting nothing -/

def submitting : Event := ⟨.info, "report_submitting"⟩

def eventsOnly : Frame where
  Rel t t' := ∃ es, submitting ∉ es ∧ t' = { t with events := t.events ++ es }
  refl t := ⟨[], List.not_mem_nil, by rw [List.append_nil]⟩
  trans := by
    rintro t t' t'' ⟨es, hes, rfl⟩ ⟨es', hes', rfl⟩
    refine ⟨es ++ es', ?_, by simp only [List.append_assoc]⟩
    rw [List.mem_append]
    rintro (h | h)
    · exact hes h
    · exact hes' h

def unsigned : Frame where
  Rel t t' := t'.payloads = t.payloads ∧ t'.submissions = t.submissions ∧
    ∃ es, submitting ∉ es ∧ t'.events = t.events ++ es
  refl t := ⟨rfl, rfl, [], List.not_mem_nil, (List.append_nil _).symm⟩
  trans := by
    rintro t t' t'' ⟨hp, hs, es, hes, he⟩ ⟨hp', hs', es', hes', he'⟩
    refine ⟨hp'.trans hp, hs'.trans hs, es ++ es', ?_, by rw [he', he, List.append_assoc]⟩
    rw [List.mem_append]
    rintro (h | h)
    · exact hes h
    · exact hes' h

theorem keeps_unsigned {r : Run α} (h : Keeps eventsOnly r) : Keeps unsigned r := by
  intro t
  obtain ⟨es, hes, he⟩ := h t
  rw [he]
  exact ⟨rfl, rfl, es, hes, rfl⟩

theorem keeps_report {level : Level} {name : String} (h : name ≠ submitting.name) :
    Keeps eventsOnly (report level name) := by
  intro t
  refine ⟨[⟨level, name⟩], fun hm => ?_, rfl⟩
  rw [List.mem_singleton] at hm
  exact h (congrArg Event.name hm).symm

theorem keeps_readContract (reader : Reader) (address : String) (data : Bytes) :
    Keeps unsigned (readContract reader address data) := by
  intro t
  exact ⟨rfl, rfl, [], List.not_mem_nil, (List.append_nil _).symm⟩

theorem keeps_send (sender : Sender) (request : Request) : Keeps unsigned (send sender request) := by
  intro t
  exact ⟨rfl, rfl, [], List.not_mem_nil, (List.append_nil _).symm⟩

/-! ## Reading nothing -/

def unread : Frame where
  Rel t t' := t'.reads = t.reads
  refl _ := rfl
  trans h h' := h'.trans h

theorem keeps_unread {r : Run α} (h : Keeps eventsOnly r) : Keeps unread r := by
  intro t
  obtain ⟨es, -, he⟩ := h t
  rw [he]
  rfl

end DefiActions.Run
