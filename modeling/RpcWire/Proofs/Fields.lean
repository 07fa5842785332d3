import RpcWire.Proofs.Equality
import RpcWire.Proofs.Faults
import RpcWire.Proofs.Grammar

namespace RpcWire

/-! # Fields on their own

A credential is read from a field: a flavor, a length and as many bytes, padded.
All that is found there depends on the flavor and on these bytes. The body of an
identity is read as if the data ended with it, so that no length inside it
reaches what comes behind. -/

/-- Such a field begins where the cursor stands. What lies in front of the cursor
and behind the field may be any bytes. -/
def Cursor.HoldsField (cursor : Cursor) (flavor : UInt32) (body : Bytes) : Prop :=
  ∃ field behind, Counted body field ∧ cursor.rest = Word.toBytes flavor ++ (field ++ behind)

theorem Cursor.HoldsField.short {cursor : Cursor} {flavor : UInt32} {body : Bytes}
    (holds : cursor.HoldsField flavor body) : body.length < UInt32.size := by
  rcases holds with ⟨_, _, counted, _⟩
  exact (counted_iff.mp counted).1

/-- Enough bytes behind a flavor and a length are a field. -/
theorem Cursor.holdsField_of_room {cursor : Cursor} {flavor length : UInt32} {others : Bytes}
    (starts : cursor.rest = Word.toBytes flavor ++ (Word.toBytes length ++ others))
    (room : length.toNat + padLength length.toNat ≤ others.length) :
    cursor.HoldsField flavor (others.take length.toNat) := by
  have size : (others.take length.toNat).length = length.toNat :=
    List.length_take_of_le (by omega)
  let later := others.drop length.toNat
  have aligned : (later.take (padLength length.toNat)).length = padLength length.toNat :=
    List.length_take_of_le (by simp [later]; omega)
  refine ⟨_, later.drop (padLength length.toNat),
    .intro length (later.take (padLength length.toNat)) size.symm (by rw [aligned, size]), ?_⟩
  simp only [starts, List.append_assoc, later, List.take_append_drop]

namespace Reading

variable {α β : Type} {cursor : Cursor}

/-- Where the form holds, the second reading goes on behind what is taken. -/
theorem Accepts.run_bind {first : Reading α} {form : α → Bytes → Bytes → Prop}
    (accepts : first.Accepts form) {value : α} {taken left : Bytes}
    (split : cursor.rest = taken ++ left) (holds : form value taken left)
    (second : α → Reading β) :
    (first >>= second).run cursor = (second value).run (cursor.advance taken.length) := by
  have ran := (accepts cursor value _).mpr ⟨taken, left, split, holds, rfl⟩
  rw [EStateM.run_bind, ran]

theorem Accepts.verdict_bind {first : Reading α} {form : α → Bytes → Bytes → Prop}
    (accepts : first.Accepts form) {value : α} {taken left : Bytes}
    (split : cursor.rest = taken ++ left) (holds : form value taken left)
    (second : α → Reading β) :
    (first >>= second).verdict cursor = (second value).verdict (cursor.advance taken.length) := by
  rw [verdict, accepts.run_bind split holds, verdict]

/-! ## Lengths that point past the end -/

theorem verdict_counted_of_past (policy : Policy) {length : UInt32} {left : Bytes}
    (split : cursor.rest = Word.toBytes length ++ left)
    (past : left.length < length.toNat + padLength length.toNat) :
    (counted policy).verdict cursor = .error (.dataTooLong length left.length) := by
  have ran := (accepts_word false cursor length _).mpr
    ⟨_, left, split, Layout.matches_word length, rfl⟩
  rw [verdict, Reading.run_counted, ran]
  simp only [Cursor.remaining_behind split, if_neg (Nat.not_le_of_lt past)]

theorem verdict_words_of_past {count : UInt32} {left : Bytes}
    (split : cursor.rest = Word.toBytes count ++ left) (past : left.length < 4 * count.toNat) :
    words.verdict cursor = .error (.arrayTooLong count.toNat left.length) := by
  have ran := (accepts_word false cursor count _).mpr
    ⟨_, left, split, Layout.matches_word count, rfl⟩
  have many : ¬ count.toNat ≤ left.length / 4 := by omega
  rw [verdict, Reading.run_words, ran]
  simp only [Cursor.remaining_behind split, if_neg many]

end Reading

open Reading

/-! ## The body of an identity -/

namespace UnixIdentity

/-- The body tells a length or a count that points past its own end. -/
inductive Overruns : UInt32 → Bytes → Prop
  | machine (stamp length : UInt32) (left : Bytes)
      (past : left.length < length.toNat + padLength length.toNat) :
      Overruns length (Word.toBytes stamp ++ (Word.toBytes length ++ left))
  | gids {name machine : Bytes} (stamp uid gid count : UInt32) (left : Bytes)
      (counted : Counted name machine) (past : left.length < 4 * count.toNat) :
      Overruns count (Word.toBytes stamp ++ (machine ++ (Word.toBytes uid ++
        (Word.toBytes gid ++ (Word.toBytes count ++ left)))))

theorem verdict_read_of_overruns {count : UInt32} {body : Bytes}
    (overruns : Overruns count body) :
    ∃ fault, (read {}).verdict (.ofBytes body) = .error fault ∧
      fault.Tells .invalidLength count := by
  have number := accepts_word false
  have start := Cursor.rest_ofBytes body
  cases overruns with
  | machine stamp _ left past =>
      have afterStamp := Cursor.rest_behind start
      have failed := verdict_counted_of_past {} afterStamp past
      refine ⟨.dataTooLong count left.length, ?_, rfl, rfl⟩
      rw [read, number.verdict_bind start (Layout.matches_word stamp)]
      exact verdict_bind_of_error failed _
  | gids stamp uid gid _ left counted past =>
      -- All in front of the count is taken, and the body has only `left` behind it.
      have afterStamp := Cursor.rest_behind start
      have afterMachine := Cursor.rest_behind afterStamp
      have afterUid := Cursor.rest_behind afterMachine
      have afterGid := Cursor.rest_behind afterUid
      refine ⟨.arrayTooLong count.toNat left.length, ?_, rfl, Fault.clamp_toNat count⟩
      rw [read, number.verdict_bind start (Layout.matches_word stamp),
        (accepts_counted {}).verdict_bind afterStamp (counted_iff.mp counted),
        number.verdict_bind afterMachine (Layout.matches_word uid),
        number.verdict_bind afterUid (Layout.matches_word gid)]
      exact verdict_bind_of_error (verdict_words_of_past afterGid past) _

/-- Without limits, the received form of an encodable identity is acceptable. -/
theorem acceptable_received {identity : UnixIdentity} (encodable : identity.Encodable) :
    identity.received.Acceptable {} where
  received := Credential.sys.inj (Credential.received_received (.sys identity))
  encodable := ⟨encodable.machine, identity.gids.count_received.symm ▸ encodable.gids⟩
  permitted := exceeds_no_limit _

end UnixIdentity

namespace Credential

/-- The body is one identity, from its first byte to its last. -/
theorem identityOfBody_of_wire {body : Bytes} {identity : UnixIdentity}
    (wire : identity.Wire body) : identityOfBody {} body = .ok identity.received := by
  rcases UnixIdentity.wire_iff.mp wire with ⟨encodable, fills⟩
  rw [← identity.layout_received] at fills
  exact identityOfBody_eq_ok_iff.mpr ⟨UnixIdentity.acceptable_received encodable, fills⟩

theorem wire_of_identityOfBody {body : Bytes} {identity : UnixIdentity}
    (found : identityOfBody {} body = .ok identity) : identity.Wire body := by
  rcases identityOfBody_eq_ok_iff.mp found with ⟨acceptable, fills⟩
  exact UnixIdentity.wire_iff.mpr ⟨acceptable.encodable, fills⟩

theorem identityOfBody_of_error {policy : Policy} {body : Bytes} {fault : Fault}
    (failed : (UnixIdentity.read policy).verdict (.ofBytes body) = .error fault) :
    identityOfBody policy body = .error fault := by
  rcases verdict_eq_error_iff.mp failed with ⟨stopped, ran⟩
  rw [identityOfBody, ran]

theorem identityOfBody_append {identity : UnixIdentity} {front extra : Bytes}
    (wire : identity.Wire front) (more : extra ≠ []) :
    identityOfBody {} (front ++ extra) = .error (.bodyLeftOver extra.length) := by
  rcases UnixIdentity.wire_iff.mp wire with ⟨encodable, fills⟩
  have start := Cursor.rest_ofBytes (front ++ extra)
  rw [← identity.layout_received] at fills
  have ran := (UnixIdentity.accepts_read {} _ identity.received _).mpr
    ⟨front, extra, start, ⟨UnixIdentity.acceptable_received encodable, fills⟩, rfl⟩
  have some : ¬ extra.length = 0 := fun none => more (List.length_eq_zero_iff.mp none)
  rw [identityOfBody, ran]
  simp only [Cursor.remaining_behind start, if_neg some]

/-! ## Kinds and flavors -/

/-- Three flavors have a form of their own. -/
def Kind.ofFlavor (flavor : UInt32) : Kind :=
  if flavor = 0 then .none
  else if flavor = 1 then .sys
  else if flavor = 2 then .short
  else .other

theorem kind_eq_ofFlavor (credential : Credential) :
    credential.kind = .ofFlavor credential.flavor := by
  cases credential with
  | none body => rfl
  | sys identity => rfl
  | short body => rfl
  | other flavor body plain =>
      simp [kind, Kind.ofFlavor, Credential.flavor, plain_iff.mp plain]

theorem ofBody_one_eq_ok_iff {policy : Policy} {body : Bytes} {credential : Credential} :
    ofBody policy 1 body = .ok credential ↔
      ∃ identity, identityOfBody policy body = .ok identity ∧ sys identity = credential := by
  rw [ofBody_one]
  cases identityOfBody policy body <;> simp [Except.map]

/-! ## The field -/

/-- The body is taken whole, and what it means is found out without the cursor. -/
theorem run_read_of_holdsField {cursor : Cursor} {flavor : UInt32} {body : Bytes}
    (holds : cursor.HoldsField flavor body) :
    (read {}).run cursor = EStateM.run (MonadExcept.ofExcept (ofBody {} flavor body))
      (cursor.advance (4 + countedSize body.length)) := by
  rcases holds with ⟨field, behind, counted, split⟩
  have fills := counted_iff.mp counted
  have size : field.length = countedSize body.length := by
    rw [fills.2.length_eq, Layout.length_counted]
  have later := Cursor.rest_behind split
  rw [read, (accepts_word false).run_bind split (Layout.matches_word flavor),
    (accepts_counted {}).run_bind later fills, EStateM.run_bind, run_ensure,
    if_pos (exceeds_no_limit _), Cursor.advance_advance, Word.length_toBytes, size]

theorem verdict_read_of_holdsField {cursor : Cursor} {flavor : UInt32} {body : Bytes}
    (holds : cursor.HoldsField flavor body) :
    (read {}).verdict cursor = ofBody {} flavor body := by
  rw [verdict, run_read_of_holdsField holds, run_ofExcept]
  cases ofBody {} flavor body <;> rfl

/-- What can be told of a reading where such a field begins. -/
structure ReadsField (cursor : Cursor) (flavor : UInt32) (body : Bytes) : Prop where
  ends : ∀ credential next, (read {}).run cursor = .ok credential next →
    next = cursor.advance (8 + body.length + padLength body.length)
  belongs : ∀ credential, (read {}).verdict cursor = .ok credential →
    credential.flavor = flavor ∧ credential.kind = .ofFlavor flavor
  plain : flavor ≠ 1 → ∃ credential, (read {}).verdict cursor = .ok credential ∧
    credential.body = body
  structured : flavor = 1 → ((∃ credential, (read {}).verdict cursor = .ok credential) ↔
    ∃ identity : UnixIdentity, identity.Wire body)
  identity : ∀ found, (read {}).verdict cursor = .ok (sys found) → found.Wire body
  overrun : flavor = 1 → ∀ count, UnixIdentity.Overruns count body →
    ∃ fault, (read {}).verdict cursor = .error fault ∧ fault.Tells .invalidLength count
  leftOver : flavor = 1 → ∀ (identity : UnixIdentity) (front extra : Bytes),
    body = front ++ extra → identity.Wire front → extra ≠ [] →
    ∃ fault, (read {}).verdict cursor = .error fault ∧ fault.code = some .invalidAuthData ∧
      fault.value.toNat = extra.length

theorem readsField_of_holdsField {cursor : Cursor} {flavor : UInt32} {body : Bytes}
    (holds : cursor.HoldsField flavor body) : ReadsField cursor flavor body := by
  have outcome := verdict_read_of_holdsField holds
  constructor
  case ends =>
    intro credential next ran
    rw [run_read_of_holdsField holds, run_ofExcept] at ran
    cases found : ofBody {} flavor body with
    | error fault =>
        rw [found] at ran
        cases ran
    | ok made =>
        rw [found] at ran
        cases ran
        rw [countedSize, ← Nat.add_assoc, ← Nat.add_assoc]
  case belongs =>
    intro credential found
    rw [outcome] at found
    rcases ((ofBody_eq_ok_iff holds.short).mp found).1 with rfl
    exact ⟨rfl, kind_eq_ofFlavor credential⟩
  case plain =>
    intro plain
    rw [outcome]
    exact exists_ofBody_of_ne {} plain body
  case structured =>
    rintro rfl
    simp only [outcome, ofBody_one_eq_ok_iff]
    constructor
    · intro accepted
      rcases accepted with ⟨_, identity, found, rfl⟩
      exact ⟨identity, wire_of_identityOfBody found⟩
    · intro described
      rcases described with ⟨identity, wire⟩
      exact ⟨_, _, identityOfBody_of_wire wire, rfl⟩
  case identity =>
    intro found ran
    rw [outcome] at ran
    rcases ((ofBody_eq_ok_iff holds.short).mp ran).1 with rfl
    rcases ofBody_one_eq_ok_iff.mp ran with ⟨identity, parsed, same⟩
    exact sys.inj same ▸ wire_of_identityOfBody parsed
  case overrun =>
    rintro rfl count overruns
    rcases UnixIdentity.verdict_read_of_overruns overruns with ⟨fault, failed, tells⟩
    refine ⟨fault, ?_, tells⟩
    rw [outcome, ofBody_one, identityOfBody_of_error failed]
    rfl
  case leftOver =>
    rintro rfl identity front extra rfl wire more
    refine ⟨.bodyLeftOver extra.length, ?_, rfl, ?_⟩
    · rw [outcome, ofBody_one, identityOfBody_append wire more]
      rfl
    · have short := holds.short
      rw [List.length_append] at short
      exact UInt32.toNat_ofNat_of_lt' (by omega)

/-- Enough bytes make a field, and what is read from a field is a function of its
flavor and its body: in any two places, behind and in front of any bytes and with
any padding, one is read like the other. -/
theorem read_from_field_alone :
    (∀ (cursor : Cursor) (flavor length : UInt32) (others : Bytes),
      cursor.rest = Word.toBytes flavor ++ (Word.toBytes length ++ others) →
      length.toNat + padLength length.toNat ≤ others.length →
      cursor.HoldsField flavor (others.take length.toNat)) ∧
    (∀ (cursor other : Cursor) (flavor : UInt32) (body : Bytes), cursor.HoldsField flavor body →
      other.HoldsField flavor body → (read {}).verdict cursor = (read {}).verdict other) ∧
    ∀ (cursor : Cursor) (flavor : UInt32) (body : Bytes), cursor.HoldsField flavor body →
      ReadsField cursor flavor body := by
  refine ⟨?_, ?_, ?_⟩
  · intro cursor flavor length others starts room
    exact Cursor.holdsField_of_room starts room
  · intro cursor other flavor body here there
    rw [verdict_read_of_holdsField here, verdict_read_of_holdsField there]
  · intro cursor flavor body holds
    exact readsField_of_holdsField holds

/-- A body of four zero words and a count of one, in front of the word that it lacks and
at the end of the data; and one that goes on behind its last field. -/
theorem read_from_field_alone_sample :
    let body := Bytes.zeros 16 ++ Word.toBytes 1
    let field := Word.toBytes 1 ++ (Word.toBytes 20 ++ body)
    let inside := (Cursor.ofBytes (Word.toBytes 9 ++ field ++ Word.toBytes 7)).advance 4
    let alone := Cursor.ofBytes field
    let longer := Cursor.ofBytes (Word.toBytes 1 ++ (Word.toBytes 23 ++ Bytes.zeros 24))
    (inside.HoldsField 1 body ∧ alone.HoldsField 1 body ∧ longer.HoldsField 1 (Bytes.zeros 23)) ∧
      (read {}).verdict inside = (read {}).verdict alone ∧
      (∃ fault, (read {}).verdict inside = .error fault ∧ fault.Tells .invalidLength 1) ∧
      ∃ fault, (read {}).verdict longer = .error fault ∧ fault.code = some .invalidAuthData ∧
        fault.value.toNat = 3 := by
  intro body field inside alone longer
  rcases read_from_field_alone with ⟨fields, same, reads⟩
  have here : inside.HoldsField 1 body :=
    fields inside 1 20 (body ++ Word.toBytes 7) rfl (by decide)
  have there : alone.HoldsField 1 body := fields alone 1 20 body rfl (by decide)
  have long : longer.HoldsField 1 (Bytes.zeros 23) :=
    fields longer 1 23 (Bytes.zeros 24) rfl (by decide)
  have noName : Counted [] (Bytes.zeros 4) := .intro 0 [] rfl rfl
  refine ⟨⟨here, there, long⟩, same _ _ _ _ here there, ?_, ?_⟩
  · have overruns : UnixIdentity.Overruns 1 body := .gids 0 0 0 1 [] noName (by decide)
    exact (reads _ _ _ here).overrun rfl 1 overruns
  · have wire : UnixIdentity.Wire {} (Bytes.zeros 20) := @UnixIdentity.Wire.intro {} _ 0 noName rfl
    exact (reads _ _ _ long).leftOver rfl {} _ [0, 0, 0] rfl wire (by decide)

end Credential

end RpcWire
