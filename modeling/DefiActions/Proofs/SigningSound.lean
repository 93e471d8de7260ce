import DefiActions.Proofs.HexLemmas
import DefiActions.Proofs.Utf8Sound
import DefiActions.Signing

/-!
# Signed messages

A message joins its parts by colons. Where the parts may hold colons themselves
the message alone does not tell the parts, but it does together with how many
colons are in each part in front of the last. One part that changes alone always
changes the message, and equal signatures come from equal messages or collide.
-/

namespace DefiActions.Signing

/-! ## Delimited texts -/

/-- The induction is over the first text of both sides, of which each character matches one of the other side. -/
theorem delimited_inj {sep : Char} {xs ys xs' ys' : List Char} (h : xs ++ sep :: ys = xs' ++ sep :: ys')
    (hc : xs.count sep = xs'.count sep) : xs = xs' ∧ ys = ys' := by
  induction xs generalizing xs' with
  | nil =>
    cases xs' with
    | nil => exact ⟨rfl, List.tail_eq_of_cons_eq h⟩
    | cons x xs' =>
      obtain rfl := List.head_eq_of_cons_eq h
      simp at hc
  | cons x xs ih =>
    cases xs' with
    | nil =>
      obtain rfl := List.head_eq_of_cons_eq h
      simp at hc
    | cons x' xs' =>
      obtain rfl := List.head_eq_of_cons_eq h
      rw [List.count_cons, List.count_cons, Nat.add_right_cancel_iff] at hc
      obtain ⟨rfl, rfl⟩ := ih (List.tail_eq_of_cons_eq h) hc
      exact ⟨rfl, rfl⟩

def colons (s : String) : Nat := s.toList.count ':'

variable {method path body timestamp method' path' body' timestamp' : String}

theorem toList_message (method path body timestamp : String) : (message method path body timestamp).toList =
    timestamp.toList ++ ':' :: ((upper method).toList ++ ':' :: (path.toList ++ ':' :: body.toList)) := by
  simp [message]

/-- A message and the number of colons in its parts tell the parts. -/
theorem parts_eq_of_message (h : message method path body timestamp = message method' path' body' timestamp')
    (ht : colons timestamp = colons timestamp') (hm : colons (upper method) = colons (upper method'))
    (hp : colons path = colons path') :
    upper method = upper method' ∧ path = path' ∧ body = body' ∧ timestamp = timestamp' := by
  have hlists := congrArg String.toList h
  rw [toList_message, toList_message] at hlists
  obtain ⟨htimestamp, hlists⟩ := delimited_inj hlists ht
  obtain ⟨hmethod, hlists⟩ := delimited_inj hlists hm
  obtain ⟨hpath, hbody⟩ := delimited_inj hlists hp
  exact ⟨String.toList_inj.mp hmethod, String.toList_inj.mp hpath, String.toList_inj.mp hbody,
    String.toList_inj.mp htimestamp⟩

/-! ## One part -/

theorem message_eq_iff_timestamp :
    message method path body timestamp = message method path body timestamp' ↔ timestamp = timestamp' := by
  rw [← String.toList_inj, toList_message, toList_message, List.append_cancel_right_eq, String.toList_inj]

theorem message_eq_iff_method :
    message method path body timestamp = message method' path body timestamp ↔ upper method = upper method' := by
  rw [← String.toList_inj, toList_message, toList_message, List.append_cancel_left_eq, List.cons_eq_cons,
    and_iff_right rfl, List.append_cancel_right_eq, String.toList_inj]

theorem message_eq_iff_path :
    message method path body timestamp = message method path' body timestamp ↔ path = path' := by
  rw [← String.toList_inj, toList_message, toList_message, List.append_cancel_left_eq, List.cons_eq_cons,
    and_iff_right rfl, List.append_cancel_left_eq, List.cons_eq_cons, and_iff_right rfl,
    List.append_cancel_right_eq,
    String.toList_inj]

theorem message_eq_iff_body :
    message method path body timestamp = message method path body' timestamp ↔ body = body' := by
  refine ⟨fun h => (parts_eq_of_message h rfl rfl rfl).2.2.1, ?_⟩
  rintro rfl
  rfl

/-! ## Signatures -/

theorem ofText_inj {s s' : String} (h : Utf8.ofText s = Utf8.ofText s') : s = s' :=
  Option.some.inj ((Utf8.text?_ofText s).symm.trans ((congrArg Utf8.text? h).trans (Utf8.text?_ofText s')))

/-- Two octet strings that the keyed hash of a secret does not tell apart. -/
def Collides (secret : String) (xs ys : Bytes) : Prop :=
  xs ≠ ys ∧ Sha256.hmac (Utf8.ofText secret) xs = Sha256.hmac (Utf8.ofText secret) ys

theorem message_eq_of_sign {secret : String}
    (h : sign secret method path body timestamp = sign secret method' path' body' timestamp') :
    message method path body timestamp = message method' path' body' timestamp' ∨
      Collides secret (Utf8.ofText (message method path body timestamp))
        (Utf8.ofText (message method' path' body' timestamp')) := by
  have hash := Hex.ofBytes_inj (String.ofList_inj.mp h)
  by_cases heq : message method path body timestamp = message method' path' body' timestamp'
  · exact Or.inl heq
  · exact Or.inr ⟨fun ho => heq (ofText_inj ho), hash⟩

/-- **Messages agree in their parts when they agree in what the colons part**, and a change of one part alone,
the case of the method apart, changes the message. -/
theorem message_determines (method path body timestamp method' path' body' timestamp' : String) :
    (message method path body timestamp = message method' path' body' timestamp' ∧
        colons timestamp = colons timestamp' ∧ colons (upper method) = colons (upper method') ∧
          colons path = colons path' ↔
      upper method = upper method' ∧ path = path' ∧ body = body' ∧ timestamp = timestamp') ∧
    (message method path body timestamp = message method' path body timestamp ↔ upper method = upper method') ∧
    (message method path body timestamp = message method path' body timestamp ↔ path = path') ∧
    (message method path body timestamp = message method path body' timestamp ↔ body = body') ∧
    (message method path body timestamp = message method path body timestamp' ↔ timestamp = timestamp') ∧
    ∀ secret, sign secret method path body timestamp = sign secret method' path' body' timestamp' →
      message method path body timestamp = message method' path' body' timestamp' ∨
        Collides secret (Utf8.ofText (message method path body timestamp))
          (Utf8.ofText (message method' path' body' timestamp')) := by
  refine ⟨⟨?_, ?_⟩, message_eq_iff_method, message_eq_iff_path, message_eq_iff_body, message_eq_iff_timestamp,
    fun secret => message_eq_of_sign⟩
  · rintro ⟨h, ht, hm, hp⟩
    exact parts_eq_of_message h ht hm hp
  · rintro ⟨hm, rfl, rfl, rfl⟩
    exact ⟨message_eq_iff_method.mpr hm, rfl, congrArg colons hm, rfl⟩

/-- A colon of the path may as well be the one in front of the body. -/
theorem colon_moved : message "POST" "/a:b" "c" "1" = message "POST" "/a" "b:c" "1" ∧
    ¬ ∀ method path body timestamp method' path' body' timestamp',
      message method path body timestamp = message method' path' body' timestamp' →
        upper method = upper method' ∧ path = path' ∧ body = body' ∧ timestamp = timestamp' := by
  have hsame : message "POST" "/a:b" "c" "1" = message "POST" "/a" "b:c" "1" := by decide
  refine ⟨hsame, fun h => ?_⟩
  obtain ⟨-, hpath, -⟩ := h _ _ _ _ _ _ _ _ hsame
  exact absurd hpath (by decide)

end DefiActions.Signing
