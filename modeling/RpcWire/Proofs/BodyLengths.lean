import RpcWire.Proofs.Writes

namespace RpcWire

/-! # Lengths of bodies

In front of the body of a credential stands its length, and a length has only
one word to stand in. A raw body that is longer than a word can tell is refused.
A structured body is not: its name and its group list are checked one by one,
while the length of the whole is cut to a word. So the length that is told is
wrong just where two short parts make a long body. -/

namespace Writing

/-- Wherever there is this much room, a count is met that has no word. -/
def RefusesCount (writing : Writing Unit) (room : Nat) : Prop :=
  ∀ region : Region, room ≤ region.free.length →
    ∃ count after, writing.run region = .error (.countTooWide count) after

variable {first second : Writing Unit} {bytes : Bytes} {room : Nat}

theorem RefusesCount.mono {more : Nat} (refuses : first.RefusesCount room)
    (enough : room ≤ more) : first.RefusesCount more :=
  fun region fits => refuses region (Nat.le_trans enough fits)

theorem RefusesCount.bind (refuses : first.RefusesCount room) (second : Writing Unit) :
    (first >>= fun _ => second).RefusesCount room := by
  intro region fits
  rcases refuses region fits with ⟨count, after, run⟩
  exact ⟨count, after, by rw [EStateM.run_bind, run]⟩

/-- The count is met behind what is written first. -/
theorem Fills.refuses (fills : first.Fills bytes) (refuses : second.RefusesCount room) :
    (first >>= fun _ => second).RefusesCount (bytes.length + room) := by
  intro region fits
  have front : bytes.length ≤ region.free.length := by omega
  have back : room ≤ (region.extend bytes).free.length := by
    rw [Region.extend, List.length_drop]
    omega
  rw [EStateM.run_bind, fills region front]
  exact refuses (region.extend bytes) back

theorem refuses_counted {data : Bytes} (wide : ¬ data.length < UInt32.size) :
    (counted data).RefusesCount 0 :=
  fun region _ => ⟨data.length, region, by rw [run_counted, if_neg wide]⟩

theorem refuses_words {values : Words} (wide : ¬ values.count < UInt32.size) :
    (words values).RefusesCount 0 :=
  fun region _ => ⟨values.count, region, by rw [run_words, if_neg wide]⟩

end Writing

open Writing

/-- The part that has no word is met before the room for the identity is used up. -/
theorem UnixIdentity.refuses_write {identity : UnixIdentity} (wide : ¬ identity.Encodable) :
    identity.write.RefusesCount identity.size := by
  by_cases name : identity.machine.length < UInt32.size
  · have many : ¬ identity.gids.count < UInt32.size := fun few => wide ⟨name, few⟩
    have refuses := (fills_raw (Word.toBytes identity.stamp)).refuses <|
      (fills_counted name).refuses <| (fills_raw (Word.toBytes identity.uid)).refuses <|
      (fills_raw (Word.toBytes identity.gid)).refuses (refuses_words many)
    apply refuses.mono
    simp only [List.length_append, Word.length_toBytes, length_padded, size, countedSize]
    omega
  · have refuses := (fills_raw (Word.toBytes identity.stamp)).refuses <|
      (refuses_counted name).bind (do
        word identity.uid
        word identity.gid
        words identity.gids)
    apply refuses.mono
    rw [Word.length_toBytes, size]
    omega

namespace Credential

/-- The word that stands behind the flavor in what was appended to a region. -/
def lengthWord (before after : Region) : UInt32 :=
  Word.ofBytes (((after.written.drop before.written.length).drop 4).take 4)

/-- Where there is room for the credential, it is written if the length of its body
has a word, and this word tells it. Otherwise the length is refused. -/
def TellsLength (credential : Credential) : Prop :=
  ∀ region : Region, credential.size ≤ region.free.length →
    (credential.bodySize < UInt32.size → ∃ after, credential.write.run region = .ok () after ∧
      (lengthWord region after).toNat = credential.bodySize) ∧
    (UInt32.size ≤ credential.bodySize → ∃ fault after,
      credential.write.run region = .error fault after ∧ fault.code = some .invalidLength)

theorem lengthWord_extend (credential : Credential) (region : Region) :
    lengthWord region (region.extend credential.layout.written) =
      UInt32.ofNat credential.bodySize := by
  have appended : (region.extend credential.layout.written).written.drop
      region.written.length = credential.layout.written := List.drop_left
  rw [lengthWord, appended, layout, Layout.written_append, Layout.written_append,
    Layout.written_word, Layout.written_word, List.drop_left' (Word.length_toBytes _),
    List.take_left' (Word.length_toBytes _), Word.ofBytes_toBytes]

theorem refuses_write {credential : Credential} (wide : ¬ credential.bodySize < UInt32.size)
    (parts : ∀ identity, credential = sys identity → ¬ identity.Encodable) :
    credential.write.RefusesCount credential.size := by
  have raw {flavor : UInt32} {body : Bytes} (long : ¬ body.length < UInt32.size) :
      (do word flavor; counted body : Writing Unit).RefusesCount (4 + countedSize body.length) :=
    ((fills_raw (Word.toBytes flavor)).refuses (refuses_counted long)).mono <| by
      rw [Word.length_toBytes]
      omega
  cases credential with
  | none body => exact raw wide
  | short body => exact raw wide
  | other flavor body plain => exact raw wide
  | sys identity =>
      have refuses := (fills_raw (Word.toBytes 1)).refuses <|
        (fills_raw (Word.toBytes (UInt32.ofNat identity.size))).refuses <|
        UnixIdentity.refuses_write (parts identity rfl)
      apply refuses.mono
      rw [Word.length_toBytes, Word.length_toBytes, size, bodySize, countedSize]
      omega

/-- Two short parts that make a long body are written, and the cut length with them. -/
theorem not_tellsLength_of_encodable {identity : UnixIdentity} (encodable : identity.Encodable)
    (wide : UInt32.size ≤ identity.size) : ¬ (sys identity).TellsLength := by
  intro tells
  let region : Region := .ofBuffer (Bytes.zeros (sys identity).size)
  have room : (sys identity).layout.written.length ≤ region.free.length := by
    simp [region, Region.ofBuffer]
  have written := (writes_sys encodable).whole region room
  rw [Layout.length_written, length_layout] at room
  rcases (tells region room).2 wide with ⟨fault, after, refused, _⟩
  rw [written] at refused
  cases refused

/-- The length of a body is told by all credentials but those of an identity with a
short name and a short group list that make a long body. -/
theorem tellsLength_iff (credential : Credential) :
    credential.TellsLength ↔
      ¬ ∃ identity, credential = sys identity ∧ identity.Encodable ∧
        UInt32.size ≤ identity.size := by
  constructor
  · intro tells long
    rcases long with ⟨identity, rfl, encodable, wide⟩
    exact not_tellsLength_of_encodable encodable wide tells
  · intro parts region room
    constructor
    · intro short
      have fits : credential.layout.written.length ≤ region.free.length := by simpa using room
      refine ⟨_, (writes_write short).whole region fits, ?_⟩
      rw [lengthWord_extend, UInt32.toNat_ofNat_of_lt' short]
    · intro wide
      have refuses := refuses_write (Nat.not_lt_of_le wide) fun identity isSys encodable =>
        parts ⟨identity, isSys, encodable, by rwa [isSys] at wide⟩
      rcases refuses region room with ⟨count, after, run⟩
      exact ⟨_, after, run, rfl⟩

/-- The credential of an identity that is in so many groups. -/
def crowded (groups : Nat) : Credential := sys { gids := .host (List.replicate groups 0) }

theorem bodySize_crowded (groups : Nat) : (crowded groups).bodySize = 20 + 4 * groups := by
  have count : (Words.host (List.replicate groups 0)).count = groups := List.length_replicate
  simp only [crowded, bodySize, UnixIdentity.size, countedSize, List.length_nil, count]
  rfl

/-- With 2³⁰ groups the body has 2³² + 20 bytes, and twenty of them are told. -/
theorem not_tellsLength_crowded :
    let credential := crowded 0x40000000
    let region := Region.ofBuffer (Bytes.zeros credential.size)
    credential.bodySize = 0x100000014 ∧ credential.size ≤ region.free.length ∧
      (∃ after, credential.write.run region = .ok () after ∧ lengthWord region after = 20) ∧
      ¬ credential.TellsLength := by
  have size := bodySize_crowded 0x40000000
  have encodable : UnixIdentity.Encodable { gids := .host (List.replicate 0x40000000 0) } := by
    refine ⟨by decide, ?_⟩
    change (List.replicate 0x40000000 (0 : UInt32)).length < UInt32.size
    rw [List.length_replicate]
    decide
  have room : (crowded 0x40000000).layout.written.length ≤
      (Region.ofBuffer (Bytes.zeros (crowded 0x40000000).size)).free.length := by
    simp [Region.ofBuffer]
  refine ⟨size, by simp [Region.ofBuffer], ⟨_, (writes_sys encodable).whole _ room, ?_⟩, ?_⟩
  · exact (lengthWord_extend (crowded 0x40000000) _).trans (by rw [size]; rfl)
  · apply not_tellsLength_of_encodable encodable
    rw [← bodySize, ← crowded, size]
    decide

end Credential

end RpcWire
