import RpcWire.Proofs.Bounds

namespace RpcWire

/-! # Views of the data

A reader copies nothing. Each byte string and each word list that it hands out
is a view of the data, and lies where the reader has gone over the data to find
it. This holds behind failed readings too, and within the elements of an array
that fails in the end. -/

namespace Cursor

variable {cursor first second third fourth : Cursor} {view : Bytes}

/-- The view stands in the data, between the one place and the other. -/
def Shows (before after : Cursor) (view : Bytes) : Prop :=
  ∃ start, before.offset ≤ start ∧ start + view.length ≤ after.offset ∧
    (before.data.drop start).take view.length = view

theorem Shows.widen (shown : second.Shows third view) (earlier : first.Proceeds second)
    (later : third.Proceeds fourth) : first.Shows fourth view := by
  rcases shown with ⟨start, behind, before, stands⟩
  refine ⟨start, Nat.le_trans earlier.forward behind, Nat.le_trans before later.forward, ?_⟩
  rw [← earlier.data]
  exact stands

theorem shows_of_infix {taken left : Bytes} (split : cursor.rest = taken ++ left)
    (part : view <:+: taken) : cursor.Shows (cursor.advance taken.length) view := by
  rcases part with ⟨front, back, rfl⟩
  refine ⟨cursor.offset + front.length, Nat.le_add_right _ _, ?_, ?_⟩
  · rw [offset_advance, List.length_append, List.length_append]
    omega
  · rw [← List.drop_drop, ← rest_eq_drop_data, split, List.append_assoc, List.append_assoc,
      List.drop_left, List.take_left]

end Cursor

/-! ## What a value shows

The views of a value are its byte strings, and its word lists as they are
spelled. Each of them has its own place in the layout of the value. -/

namespace Layout

variable {strict : Bool} {layout front back : Layout} {bytes content : Bytes}

theorem Matches.infix_of_data (fills : layout.Matches strict bytes)
    (part : data content <:+: layout) : content <:+: bytes := by
  rcases part with ⟨front, back, rfl⟩
  rcases matches_append_iff.mp fills with ⟨_, behind, rfl, fillsFront, _⟩
  rcases matches_append_iff.mp fillsFront with ⟨before, middle, rfl, _, fillsData⟩
  rcases matches_data_iff.mp fillsData with rfl
  exact List.infix_append before middle behind

theorem data_infix_of_mem_singleton {view : Bytes} (member : view ∈ [content]) :
    data view <:+: data content := by
  rcases List.mem_singleton.mp member with rfl
  exact List.infix_rfl

theorem data_infix_counted (content : Bytes) : data content <:+: counted content :=
  List.infix_append _ _ _

theorem data_infix_words (values : Words) : data values.toBytes <:+: words values :=
  (List.suffix_append _ _).isInfix

end Layout

def UnixIdentity.views (identity : UnixIdentity) : List Bytes :=
  [identity.machine, identity.gids.toBytes]

def Credential.views : Credential → List Bytes
  | sys identity => identity.views
  | none body | short body | other _ body _ => [body]

def Call.views (call : Call) : List Bytes :=
  call.credential.views ++ call.verifier.views ++ [call.arguments]

def Outcome.views (outcome : Outcome) : List Bytes := outcome.tail?.toList

def Reply.views : Reply → List Bytes
  | accepted verifier outcome => verifier.views ++ outcome.views
  | denied _ => []

theorem UnixIdentity.views_infix {identity : UnixIdentity} :
    ∀ view ∈ identity.views, Layout.data view <:+: identity.layout := by
  intro view member
  simp only [views, List.mem_cons, List.not_mem_nil, or_false] at member
  rcases member with rfl | rfl
  · exact List.infix_append_of_infix_right
      (List.infix_append_of_infix_left (Layout.data_infix_counted _))
  · exact List.infix_append_of_infix_right <| List.infix_append_of_infix_right <|
      List.infix_append_of_infix_right <| List.infix_append_of_infix_right
        (Layout.data_infix_words _)

theorem Credential.views_infix {credential : Credential} :
    ∀ view ∈ credential.views, Layout.data view <:+: credential.layout := by
  intro view member
  have inBody : Layout.data view <:+: credential.bodyLayout := by
    cases credential with
    | sys identity => exact UnixIdentity.views_infix view member
    | none body => exact Layout.data_infix_of_mem_singleton member
    | short body => exact Layout.data_infix_of_mem_singleton member
    | other flavor body plain => exact Layout.data_infix_of_mem_singleton member
  exact List.infix_append_of_infix_right <| List.infix_append_of_infix_right <|
    List.infix_append_of_infix_left inBody

theorem Call.views_infix {call : Call} :
    ∀ view ∈ call.views, Layout.data view <:+: call.layout := by
  intro view member
  refine List.infix_append_of_infix_right <| List.infix_append_of_infix_right <|
    List.infix_append_of_infix_right <| List.infix_append_of_infix_right ?_
  simp only [views, List.mem_append, List.mem_singleton] at member
  rcases member with (asks | verifies) | rfl
  · exact List.infix_append_of_infix_left (Credential.views_infix view asks)
  · exact List.infix_append_of_infix_right
      (List.infix_append_of_infix_left (Credential.views_infix view verifies))
  · exact List.infix_append_of_infix_right (List.infix_append_of_infix_right List.infix_rfl)

theorem Outcome.views_infix {outcome : Outcome} :
    ∀ view ∈ outcome.views, Layout.data view <:+: outcome.layout := by
  intro view member
  apply List.infix_append_of_infix_right
  cases outcome with
  | success results => exact Layout.data_infix_of_mem_singleton member
  | _ => exact absurd member List.not_mem_nil

theorem Reply.views_infix {reply : Reply} :
    ∀ view ∈ reply.views, Layout.data view <:+: reply.layout := by
  intro view member
  apply List.infix_append_of_infix_right
  cases reply with
  | accepted verifier outcome =>
      rcases List.mem_append.mp member with verifies | ends
      · exact List.infix_append_of_infix_left (Credential.views_infix view verifies)
      · exact List.infix_append_of_infix_right (Outcome.views_infix view ends)
  | denied rejection => exact absurd member List.not_mem_nil

namespace ReadScript

mutual

def Value.views : Value → List Bytes
  | .data bytes | .string bytes => [bytes]
  | .words values => [values.toBytes]
  | .array items | .fixedArray items => Value.viewsAll items
  | .identity value => value.views
  | .credential value => value.views
  | .call value => value.views
  | .outcome value => value.views
  | .reply value => value.views
  | .word _ | .int _ | .double _ | .long _ | .bool _ | .rejection _ => []

def Value.viewsAll : List Value → List Bytes
  | [] => []
  | value :: rest => value.views ++ Value.viewsAll rest

end

theorem Value.viewsAll_eq (items : List Value) :
    Value.viewsAll items = items.flatMap Value.views := by
  induction items with
  | nil => rfl
  | cons value rest induction => rw [viewsAll, induction, List.flatMap_cons]

theorem Value.views_array (items : List Value) :
    (Value.array items).views = items.flatMap Value.views := by
  rw [views, viewsAll_eq]

theorem Value.views_fixedArray (items : List Value) :
    (Value.fixedArray items).views = items.flatMap Value.views := by
  rw [views, viewsAll_eq]

end ReadScript

/-! ## What a reading shows -/

namespace Reading

open Cursor

variable {α β : Type} {cursor next stopped : Cursor} {views : α → List Bytes}

/-- All views of what the reading yields are found where it has read. -/
def Exposes (reading : Reading α) (views : α → List Bytes) : Prop :=
  ∀ ⦃cursor value next⦄, cursor.Inside → reading.run cursor = .ok value next →
    ∀ view ∈ views value, cursor.Shows next view

theorem exposes_nothing (reading : Reading α) : reading.Exposes fun _ => [] :=
  fun _ _ _ _ _ _ member => absurd member List.not_mem_nil

/-- What is read fills its layout, in which each view has its place. -/
theorem Accepts.exposes {reading : Reading α} {form : α → Bytes → Bytes → Prop}
    (accepts : reading.Accepts form) {strict : Bool} {layout : α → Layout}
    (fills : ∀ value taken left, form value taken left → (layout value).Matches strict taken)
    (placed : ∀ value, ∀ view ∈ views value, Layout.data view <:+: layout value) :
    reading.Exposes views := by
  intro cursor value next _ ran view member
  rcases (accepts cursor value next).mp ran with ⟨taken, left, split, holds, rfl⟩
  have filled := fills value taken left holds
  exact shows_of_infix split (filled.infix_of_data (placed value view member))

theorem exposes_counted (policy : Policy) : (counted policy).Exposes fun data => [data] := by
  apply (accepts_counted policy).exposes (fun _ _ _ form => form.2)
  intro data view member
  rw [List.mem_singleton.mp member]
  exact Layout.data_infix_counted data

theorem exposes_fixed (policy : Policy) (length : Nat) :
    (fixed policy length).Exposes fun data => [data] := by
  apply (accepts_fixed policy length).exposes (fun _ _ _ form => form.2)
  intro data view member
  rw [List.mem_singleton.mp member]
  exact List.infix_append_of_infix_left List.infix_rfl

theorem exposes_words : words.Exposes fun values => [values.toBytes] := by
  apply (accepts_words true).exposes (fun _ _ _ form => form.2.2)
  intro values view member
  rw [List.mem_singleton.mp member]
  exact Layout.data_infix_words values

theorem exposes_tail : tail.Exposes fun data => [data] := by
  have fills (data taken left : Bytes) (form : data = taken ∧ left = []) :
      (Layout.data data).Matches true taken := by
    rcases form with ⟨rfl, _⟩
    exact Layout.matches_data data
  exact accepts_tail.exposes fills fun _ _ => Layout.data_infix_of_mem_singleton

theorem Exposes.map {reading : Reading α} (exposes : reading.Exposes views) {wrap : α → β}
    {wrapped : β → List Bytes} (same : ∀ value, wrapped (wrap value) = views value) :
    Exposes (do return wrap (← reading)) wrapped := by
  intro cursor value next inside ran view member
  rw [EStateM.run_bind] at ran
  cases content : reading.run cursor with
  | error fault stopped =>
      rw [content] at ran
      cases ran
  | ok found stopped =>
      rw [content] at ran
      cases ran
      rw [same] at member
      exact exposes inside content view member

/-! ## Arrays, complete or not -/

theorem Bounded.proceeds_of_ok {reading : Reading α} (bounded : reading.Bounded)
    (inside : cursor.Inside) {value : α} (ran : reading.run cursor = .ok value next) :
    cursor.Proceeds next := by
  have agrees := bounded inside (.refl cursor)
  rw [ran] at agrees
  cases agrees with
  | yields _ moved _ => exact moved

theorem Bounded.proceeds_of_error {reading : Reading α} (bounded : reading.Bounded)
    (inside : cursor.Inside) {fault : Fault} (failed : reading.run cursor = .error fault stopped) :
    cursor.Proceeds stopped := by
  have agrees := bounded inside (.refl cursor)
  rw [failed] at agrees
  cases agrees with
  | fails _ moved _ => exact moved

/-- The views of all elements that are complete are found where the array was
read. -/
structure Progress.ShownFrom (progress : Progress α) (views : α → List Bytes)
    (start : Cursor) : Prop where
  moved : start.Proceeds progress.cursor
  shown : ∀ view ∈ progress.items.flatMap views, start.Shows progress.cursor view

theorem Progress.ShownFrom.behind {progress : Progress α} (shown : progress.ShownFrom views next)
    (moved : cursor.Proceeds next) : progress.ShownFrom views cursor where
  moved := moved.trans shown.moved
  shown view member := (shown.shown view member).widen moved (.refl shown.moved.inside)

theorem shownFrom_failed {fault : Fault} (moved : cursor.Proceeds stopped) :
    Progress.ShownFrom ⟨[], some fault, stopped⟩ views cursor where
  moved := moved
  shown _ member := absurd member List.not_mem_nil

section

variable {item : Nat → Reading α} (bounded : ∀ index, (item index).Bounded)
  (exposes : ∀ index, (item index).Exposes views)
include bounded exposes

theorem shownFrom_elements (index count : Nat) (inside : cursor.Inside) :
    (elements item index count cursor).ShownFrom views cursor := by
  induction count generalizing index cursor with
  | zero => exact ⟨.refl inside, fun _ member => absurd member List.not_mem_nil⟩
  | succ count induction =>
      rw [elements]
      cases ran : (item index).run cursor with
      | error fault stopped => exact shownFrom_failed ((bounded index).proceeds_of_error inside ran)
      | ok value next =>
          have moved := (bounded index).proceeds_of_ok inside ran
          have later := induction (index + 1) moved.inside
          refine ⟨moved.trans later.moved, fun view member => ?_⟩
          rw [List.flatMap_cons] at member
          rcases List.mem_append.mp member with here | behind
          · exact (exposes index inside ran view here).widen (.refl inside) later.moved
          · exact (later.behind moved).shown view behind

theorem shownFrom_arrayProgress (minimum : Nat) (inside : cursor.Inside) :
    (arrayProgress minimum item cursor).ShownFrom views cursor := by
  have counting : Bounded (do
      let count ← word
      checkCount count.toNat minimum
      return count.toNat) :=
    bounded_word.bind fun count =>
    (bounded_checkCount count.toNat minimum).bind fun _ =>
    bounded_pure _
  dsimp only [arrayProgress]
  split
  · next count next ran =>
      have moved := counting.proceeds_of_ok inside ran
      exact (shownFrom_elements bounded exposes 0 count moved.inside).behind moved
  · next fault stopped failed =>
      exact shownFrom_failed (counting.proceeds_of_error inside failed)

theorem shownFrom_fixedArrayProgress (count minimum : Nat) (inside : cursor.Inside) :
    (fixedArrayProgress count minimum item cursor).ShownFrom views cursor := by
  unfold fixedArrayProgress
  split
  · next next ran =>
      have moved := (bounded_checkCount count minimum).proceeds_of_ok inside ran
      exact (shownFrom_elements bounded exposes 0 count moved.inside).behind moved
  · next fault stopped failed =>
      exact shownFrom_failed ((bounded_checkCount count minimum).proceeds_of_error inside failed)

end

theorem Progress.ShownFrom.of_result {progress : Progress α}
    (shown : progress.ShownFrom views cursor) {items : List α}
    (result : progress.result = .ok items next) :
    ∀ view ∈ items.flatMap views, cursor.Shows next view := by
  rcases progress with ⟨found, _ | fault, final⟩
  · cases result
    exact shown.shown
  · cases result

end Reading

open Reading

theorem UnixIdentity.exposes_read (policy : Policy) :
    (read policy).Exposes UnixIdentity.views :=
  (accepts_read policy).exposes (fun _ _ _ form => form.2) fun _ => views_infix

theorem Credential.exposes_read (policy : Policy) : (read policy).Exposes Credential.views :=
  (accepts_read policy).exposes (fun _ _ _ form => form.2) fun _ => views_infix

theorem Call.exposes_read (policy : Policy) : (read policy).Exposes Call.views :=
  (accepts_read policy).exposes (fun _ _ _ form => form.1) fun _ => views_infix

theorem Outcome.exposes_read : read.Exposes Outcome.views :=
  (accepts_read true).exposes (fun _ _ _ form => form.1) fun _ => views_infix

theorem Reply.exposes_read (policy : Policy) : (read policy).Exposes Reply.views :=
  (accepts_read policy).exposes (fun _ _ _ form => form.1) fun _ => views_infix

/-! ## The steps of a script -/

namespace ReadScript.Step

theorem exposes_read (policy : Policy) (step : Step) : (step.read policy).Exposes Value.views := by
  induction step with
  | word => exact (exposes_nothing _).map fun _ => rfl
  | int => exact (exposes_nothing _).map fun _ => rfl
  | double => exact (exposes_nothing _).map fun _ => rfl
  | long => exact (exposes_nothing _).map fun _ => rfl
  | bool => exact (exposes_nothing _).map fun _ => rfl
  | rejection => exact (exposes_nothing _).map fun _ => rfl
  | counted => exact (exposes_counted policy).map fun _ => rfl
  | string => exact (exposes_counted policy).map fun _ => rfl
  | fixed length => exact (exposes_fixed policy length).map fun _ => rfl
  | words => exact exposes_words.map fun _ => rfl
  | tail => exact exposes_tail.map fun _ => rfl
  | array minimum item induction =>
      have elements : (Reading.array minimum fun _ => item.read policy).Exposes
          fun items => items.flatMap Value.views :=
        fun _ _ _ inside ran => (shownFrom_arrayProgress (fun _ => item.bounded_read policy)
          (fun _ => induction) minimum inside).of_result ran
      exact elements.map Value.views_array
  | fixedArray count minimum item induction =>
      have elements : (Reading.fixedArray count minimum fun _ => item.read policy).Exposes
          fun items => items.flatMap Value.views :=
        fun _ _ _ inside ran => (shownFrom_fixedArrayProgress (fun _ => item.bounded_read policy)
          (fun _ => induction) count minimum inside).of_result ran
      exact elements.map Value.views_fixedArray
  | identity => exact (UnixIdentity.exposes_read policy).map fun _ => rfl
  | credential => exact (Credential.exposes_read policy).map fun _ => rfl
  | call => exact (Call.exposes_read policy).map fun _ => rfl
  | outcome => exact Outcome.exposes_read.map fun _ => rfl
  | reply => exact (Reply.exposes_read policy).map fun _ => rfl

end ReadScript.Step

end RpcWire
