import DefiActions.Proofs.JsonLemmas
import DefiActions.Proofs.RunLemmas
import DefiActions.Proofs.Utf8Sound
import DefiActions.Proofs.MembersLemmas
import DefiActions.Service.Handling

/-!
# Loading configurations

The entry of a workflow is decided by its own file. A file that is no JSON or no
valid configuration is left out; one that cannot be read at all, as its octets
are no text or an integer in it is too long, leaves nothing loaded, and the
first such file in the order of the catalog decides the failure.
-/

namespace DefiActions.Service

open Run (exec exec_bind_of_ok exec_bind_of_error)

/-! ## One file -/

/-- The content is a text in UTF-8, the text is JSON, and its value is a configuration with this normal form. -/
def Holds (w : Workflow) (content : Bytes) (config : Value) : Prop :=
  ∃ cs v, Utf8.decode? content = some cs ∧ Json.read cs = .ok v ∧ w.configure v = .ok config

/-- What keeps a content from being looked at as JSON. -/
inductive Unreadable (content : Bytes) : Failure → Prop
  | octets (h : Utf8.decode? content = none) : Unreadable content .notUtf8
  | integer {cs : List Char} {digits : Nat} (hcs : Utf8.decode? content = some cs)
    (h : Json.read cs = .error (.integerTooLong digits)) :
    Unreadable content (.rejected (.numeralTooLong (some digits)))

section

variable {w : Workflow} {content : Bytes} {f : Failure}

theorem Unreadable.documentOfBytes_eq (h : Unreadable content f) : Json.documentOfBytes content = .error f := by
  rw [Json.documentOfBytes_eq_error]
  cases h with
  | octets h => exact .inl ⟨h, rfl⟩
  | integer hcs h => exact .inr ⟨_, _, hcs, h, rfl⟩

theorem Unreadable.leavesOut_eq (h : Unreadable content f) : leavesOut f = false := by
  cases h <;> rfl

theorem readConfiguration_eq_ok {config : Value} :
    readConfiguration w content = .ok config ↔ Holds w content config := by
  simp only [readConfiguration, bind_eq_ok, Json.documentOfBytes_eq_ok, Holds]
  constructor
  · rintro ⟨v, ⟨cs, hcs, hv⟩, h⟩
    exact ⟨cs, v, hcs, hv, h⟩
  · rintro ⟨cs, v, hcs, hv, h⟩
    exact ⟨v, ⟨cs, hcs, hv⟩, h⟩

theorem readConfiguration_eq_error (h : readConfiguration w content = .error f) :
    leavesOut f = true ∨ Unreadable content f := by
  rcases bind_eq_error.mp h with h | ⟨v, -, h⟩
  · rcases Json.documentOfBytes_eq_error.mp h with ⟨hnone, rfl⟩ | ⟨cs, fault, hcs, hfault, rfl⟩
    · exact .inr (.octets hnone)
    · cases fault with
      | malformed => exact .inl rfl
      | integerTooLong digits => exact .inr (.integer hcs hfault)
  · obtain ⟨issues, -, rfl⟩ := mapError_eq_error.mp h
    exact .inl rfl

end

theorem Holds.not_unreadable {w : Workflow} {content : Bytes} {config : Value} (h : Holds w content config)
    (f : Failure) : ¬ Unreadable content f := by
  intro hu
  obtain ⟨v, hv, -⟩ := bind_eq_ok.mp (readConfiguration_eq_ok.mpr h)
  cases hv.symm.trans hu.documentOfBytes_eq

def Readable (file : Workflow → Option Bytes) (w : Workflow) : Prop :=
  ∀ content, file w = some content → ∀ f, ¬ Unreadable content f

def loaded? (file : Workflow → Option Bytes) (w : Workflow) : Option Value :=
  (file w).bind fun content => (readConfiguration w content).toOption

section

variable {file : Workflow → Option Bytes} {w : Workflow} {content : Bytes} {f : Failure}

theorem loaded?_eq_some {config : Value} :
    loaded? file w = some config ↔ ∃ content, file w = some content ∧ Holds w content config := by
  simp only [loaded?, Option.bind_eq_some_iff, ← readConfiguration_eq_ok]
  refine exists_congr fun content => and_congr_right fun _ => ?_
  cases readConfiguration w content with
  | ok c => exact ⟨congrArg _ ∘ Option.some.inj, congrArg _ ∘ Except.ok.inj⟩
  | error f => exact ⟨nofun, nofun⟩

theorem exec_loadOne_of_readable (h : Readable file w) (t : Trace) :
    ∃ t', exec (loadOne file w) t = (.ok ((loaded? file w).map (w, ·)), t') := by
  unfold loadOne loaded?
  cases hf : file w with
  | none => exact ⟨t, rfl⟩
  | some content =>
    cases hr : readConfiguration w content with
    | ok config =>
      simp only [hr, Option.bind_some]
      exact ⟨t, rfl⟩
    | error f =>
      have hout : leavesOut f = true := (readConfiguration_eq_error hr).resolve_right (h content hf f)
      simp only [hr, hout, if_true, Option.bind_some]
      exact ⟨_, rfl⟩

theorem exec_loadOne_of_unreadable (hf : file w = some content) (h : Unreadable content f) (t : Trace) :
    exec (loadOne file w) t = (.error f, t) := by
  have hr : readConfiguration w content = .error f := bind_eq_error.mpr (.inl h.documentOfBytes_eq)
  unfold loadOne
  simp only [hf, hr, h.leavesOut_eq, Bool.false_eq_true, if_false]
  rfl

/-! ## All files -/

theorem exec_filterMapM_of_readable {ws : List Workflow} (h : ∀ w ∈ ws, Readable file w) (t : Trace) :
    ∃ t', exec (ws.filterMapM (loadOne file)) t =
      (.ok (ws.filterMap fun w => (loaded? file w).map (w, ·)), t') := by
  induction ws generalizing t with
  | nil => exact ⟨t, rfl⟩
  | cons w ws ih =>
    rw [List.forall_mem_cons] at h
    obtain ⟨t₁, hw⟩ := exec_loadOne_of_readable h.1 t
    obtain ⟨t₂, hws⟩ := ih h.2 t₁
    rw [List.filterMapM_cons, exec_bind_of_ok hw, List.filterMap_cons]
    cases (loaded? file w).map (w, ·) with
    | none => exact ⟨t₂, hws⟩
    | some entry => exact ⟨t₂, exec_bind_of_ok hws⟩

theorem exec_filterMapM_of_unreadable {before after : List Workflow} (hb : ∀ w ∈ before, Readable file w)
    (hf : file w = some content) (h : Unreadable content f) (t : Trace) :
    ∃ t', exec ((before ++ w :: after).filterMapM (loadOne file)) t = (.error f, t') := by
  induction before generalizing t with
  | nil =>
    rw [List.nil_append, List.filterMapM_cons]
    exact ⟨t, exec_bind_of_error (exec_loadOne_of_unreadable hf h t)⟩
  | cons w' before ih =>
    -- entries found so far are lost with the failure of a later file
    rw [List.forall_mem_cons] at hb
    obtain ⟨t₁, hw⟩ := exec_loadOne_of_readable hb.1 t
    obtain ⟨t₂, hrest⟩ := ih hb.2 t₁
    rw [List.cons_append, List.filterMapM_cons, exec_bind_of_ok hw]
    cases (loaded? file w').map (w', ·) with
    | none => exact ⟨t₂, hrest⟩
    | some entry => exact ⟨t₂, exec_bind_of_error hrest⟩

theorem readable_or_exists_first (file : Workflow → Option Bytes) (ws : List Workflow) :
    (∀ w ∈ ws, Readable file w) ∨ ∃ before w after content f, ws = before ++ w :: after ∧
      (∀ w' ∈ before, Readable file w') ∧ file w = some content ∧ Unreadable content f := by
  induction ws with
  | nil => exact .inl nofun
  | cons w ws ih =>
    by_cases hw : Readable file w
    · rcases ih with h | ⟨before, w', after, content, f, rfl, hb, hf, hu⟩
      · exact .inl (List.forall_mem_cons.mpr ⟨hw, h⟩)
      · exact .inr ⟨w :: before, w', after, content, f, rfl, List.forall_mem_cons.mpr ⟨hw, hb⟩, hf, hu⟩
    · simp only [Readable, not_forall, not_not] at hw
      obtain ⟨content, hf, f, hu⟩ := hw
      exact .inr ⟨[], w, ws, content, f, rfl, nofun, hf, hu⟩

theorem lookup_filterMap (g : Workflow → Option Value) (ws : List Workflow) (w : Workflow) :
    (ws.filterMap fun w => (g w).map (w, ·)).lookup w = if w ∈ ws then g w else none := by
  induction ws with
  | nil => rfl
  | cons w' ws ih =>
    rw [List.filterMap_cons]
    by_cases he : w = w'
    · subst he
      cases hg : g w with
      | none => simp [ih, hg]
      | some v => simp
    · cases g w' with
      | none => simp [ih, he]
      | some v => simp [List.lookup_cons, beq_eq_false_iff_ne.mpr he, ih, he]

theorem map_filterMap_sublist (g : Workflow → Option Value) (ws : List Workflow) :
    ((ws.filterMap fun w => (g w).map (w, ·)).map Prod.fst).Sublist ws := by
  induction ws with
  | nil => exact .slnil
  | cons w ws ih =>
    rw [List.filterMap_cons]
    cases g w with
    | none => exact ih.cons w
    | some v => exact ih.cons_cons w

theorem mem_all (w : Workflow) : w ∈ Workflow.all := by
  cases w <;> decide

theorem start_load_of_readable (h : ∀ w, Readable file w) :
    (Run.start (load file)).1 = .ok (Workflow.all.filterMap fun w => (loaded? file w).map (w, ·)) := by
  obtain ⟨t, ht⟩ := @exec_filterMapM_of_readable file Workflow.all (fun w _ => h w) {}
  rw [Run.start_eq, load, exec_bind_of_ok ht]
  rfl

theorem start_load_of_unreadable {before after : List Workflow} (hall : Workflow.all = before ++ w :: after)
    (hb : ∀ w ∈ before, Readable file w) (hf : file w = some content) (h : Unreadable content f) :
    (Run.start (load file)).1 = .error f := by
  obtain ⟨t, ht⟩ := @exec_filterMapM_of_unreadable file w content f before after hb hf h {}
  rw [← hall] at ht
  rw [Run.start_eq, load, exec_bind_of_error ht]

end

/-- **What is loaded for a workflow is what its own file holds**, whatever the other files hold that can be read.
Something is loaded exactly when each file can be read, and the first that cannot is the failure. -/
theorem load_sound (file : Workflow → Option Bytes) :
    ((∃ configs, (Run.start (load file)).1 = .ok configs) ↔ ∀ w, Readable file w) ∧
    (∀ configs, (Run.start (load file)).1 = .ok configs → (configs.map Prod.fst).Sublist Workflow.all ∧
      ∀ w config, configs.lookup w = some config ↔ ∃ content, file w = some content ∧ Holds w content config) ∧
    ∀ f, (Run.start (load file)).1 = .error f ↔ ∃ before w after content, Workflow.all = before ++ w :: after ∧
      (∀ w' ∈ before, Readable file w') ∧ file w = some content ∧ Unreadable content f := by
  rcases readable_or_exists_first file Workflow.all with h | ⟨before, w, after, content, f, hall, hb, hf, hu⟩
  · have hload := start_load_of_readable fun w => h w (mem_all w)
    refine ⟨⟨fun _ w => h w (mem_all w), fun _ => ⟨_, hload⟩⟩, ?_, fun f => ⟨?_, ?_⟩⟩
    · intro configs hc
      obtain rfl := Except.ok.inj (hload.symm.trans hc)
      refine ⟨map_filterMap_sublist _ _, fun w config => ?_⟩
      rw [lookup_filterMap, if_pos (mem_all w), loaded?_eq_some]
    · intro he
      cases hload.symm.trans he
    · rintro ⟨before, w, after, content, -, -, hf, hu⟩
      exact absurd hu (h w (mem_all w) content hf f)
  · have hload := start_load_of_unreadable hall hb hf hu
    refine ⟨⟨?_, fun h => absurd hu (h w content hf f)⟩, ?_, fun f' => ⟨?_, ?_⟩⟩
    · rintro ⟨configs, hc⟩
      cases hload.symm.trans hc
    · intro configs hc
      cases hload.symm.trans hc
    · intro he
      obtain rfl := Except.error.inj (hload.symm.trans he)
      exact ⟨before, w, after, content, hall, hb, hf, hu⟩
    · rintro ⟨before', w', after', content', hall', hb', hf', hu'⟩
      exact start_load_of_unreadable hall' hb' hf' hu'

/-! ## Files that are loaded -/

def feedsText : List Char := "\x7b\"chainName\": \"ETHEREUM\", \"feeds\": []\x7d".toList

def feedsForm : Value := .record [("schedule", .text ""), ("chainName", .text "ETHEREUM"), ("feeds", .list []),
  ("staleAfterSeconds", .null)]

theorem holds_feedsText : Holds .readFeeds (Utf8.encode feedsText) feedsForm := by
  have hread : Json.read feedsText = .ok (.record [("chainName", .text "ETHEREUM"), ("feeds", .list [])]) :=
    eq_ok_of_isOk (by decide +kernel)
  exact ⟨feedsText, _, Utf8.decode?_encode _, hread, rfl⟩

def twoFiles (content : Bytes) : Workflow → Option Bytes
  | .readFeeds => some (Utf8.encode feedsText)
  | .aaveLending => some content
  | _ => none

theorem readable_twoFiles {content : Bytes} (h : ∀ f, ¬ Unreadable content f) (w : Workflow) :
    Readable (twoFiles content) w := by
  intro c hc
  cases w with
  | readFeeds =>
    obtain rfl := Option.some.inj hc
    exact holds_feedsText.not_unreadable
  | aaveLending =>
    obtain rfl := Option.some.inj hc
    exact h
  | uniswapSwap | lifiSwap | ostiumTrading | liquidityPosition => cases hc

/-- A file that is no JSON is left out, and the other workflow is configured. -/
theorem some_load_sound : ∃ configs, (Run.start (load (twoFiles (Utf8.encode ['['])))).1 = .ok configs ∧
    configs.lookup .readFeeds = some feedsForm ∧ ∀ config, configs.lookup .aaveLending ≠ some config := by
  obtain ⟨hiff, hentries, -⟩ := load_sound (twoFiles (Utf8.encode ['[']))
  have hdecode : Utf8.decode? (Utf8.encode ['[']) = some ['['] := Utf8.decode?_encode _
  have hread : Json.read ['['] = .error .malformed := rfl
  obtain ⟨configs, hload⟩ := hiff.mpr <| readable_twoFiles fun f hu => by
    cases hu with
    | octets h => cases hdecode.symm.trans h
    | integer hcs h =>
      obtain rfl := Option.some.inj (hdecode.symm.trans hcs)
      cases hread.symm.trans h
  obtain ⟨-, hlookup⟩ := hentries configs hload
  refine ⟨configs, hload, (hlookup .readFeeds feedsForm).mpr ⟨_, rfl, holds_feedsText⟩, fun config hc => ?_⟩
  obtain ⟨content, hf, cs, v, hcs, hv, -⟩ := (hlookup .aaveLending config).mp hc
  obtain rfl := Option.some.inj hf
  obtain rfl := Option.some.inj (hdecode.symm.trans hcs)
  cases hread.symm.trans hv

/-- An integer of 4301 digits in one file, or an octet that starts no character, and no other file is loaded. -/
theorem unreadable_stops_all :
    (Run.start (load (twoFiles (Utf8.encode (List.replicate 4301 '1'))))).1 =
        .error (.rejected (.numeralTooLong (some 4301))) ∧
      (Run.start (load (twoFiles [0xff]))).1 = .error .notUtf8 ∧
      ∀ content, twoFiles content .readFeeds = some (Utf8.encode feedsText) ∧
        Holds .readFeeds (Utf8.encode feedsText) feedsForm := by
  have hbefore (content : Bytes) : ∀ w ∈ [Workflow.readFeeds, .uniswapSwap], Readable (twoFiles content) w := by
    intro w hw c hc
    rcases List.mem_pair.mp hw with rfl | rfl
    · obtain rfl := Option.some.inj hc
      exact holds_feedsText.not_unreadable
    · cases hc
  have hdigits : Text.numeralLimit < 4301 := by decide
  exact ⟨start_load_of_unreadable rfl (hbefore _) rfl (.integer (Utf8.decode?_encode _) (Json.read_ones hdigits)),
    start_load_of_unreadable rfl (hbefore _) rfl (.octets rfl), fun _ => ⟨rfl, holds_feedsText⟩⟩

end DefiActions.Service
