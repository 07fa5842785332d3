import RpcWire.Proofs.Layout.Message
import RpcWire.Writing.Run

namespace RpcWire

/-! # What a writing writes

A writing that does not look at its region writes the same bytes wherever it
runs. All of them are written where there is room. Otherwise the region is
full, and what has been written until then is a beginning of them. -/

theorem Layout.written_counted (data : Bytes) :
    (counted data).written =
      Word.toBytes (UInt32.ofNat data.length) ++ Writing.padded data := by
  simp [counted, Writing.padded]

theorem Layout.written_words (values : Words) :
    (words values).written = Word.toBytes (UInt32.ofNat values.count) ++ values.toBytes := by
  simp [words]

namespace Writing

structure Writes (writing : Writing Unit) (bytes : Bytes) : Prop where
  whole (region : Region) (room : bytes.length ≤ region.free.length) :
    writing.run region = .ok () (region.extend bytes)
  short (region : Region) (full : region.free.length < bytes.length) :
    ∃ needed part, part <+: bytes ∧ part.length ≤ region.free.length ∧
      writing.run region = .error (.regionFull needed region.capacity) (region.extend part)

theorem Writes.congr {writing other : Writing Unit} {bytes : Bytes}
    (writes : other.Writes bytes) (same : ∀ region, writing.run region = other.run region) :
    writing.Writes bytes where
  whole region room := (same region).trans (writes.whole region room)
  short region full := by
    rw [same region]
    exact writes.short region full

theorem extend_nil (region : Region) : region.extend [] = region := by
  simp [Region.extend]

theorem writes_pure : Writes (pure ()) [] where
  whole region _ := by rw [extend_nil]; rfl
  short region full := absurd full (Nat.not_lt_zero _)

theorem writes_raw (bytes : Bytes) : (raw bytes).Writes bytes where
  whole := fills_raw bytes
  short region full := by
    refine ⟨region.written.length + bytes.length, [], List.nil_prefix, Nat.zero_le _, ?_⟩
    rw [run_raw, if_neg (Nat.not_le_of_lt full), extend_nil]

/-- Writings in sequence write their bytes in sequence. -/
theorem Writes.bind {first second : Writing Unit} {front back : Bytes}
    (writesFront : first.Writes front) (writesBack : second.Writes back) :
    (first >>= fun _ => second).Writes (front ++ back) where
  whole := Fills.bind writesFront.whole writesBack.whole
  short region full := by
    rw [List.length_append] at full
    by_cases frontFits : front.length ≤ region.free.length
    · have backFull : (region.extend front).free.length < back.length := by
        rw [Region.extend, List.length_drop]
        omega
      rcases writesBack.short _ backFull with ⟨needed, part, isPart, fits, run⟩
      refine ⟨needed, front ++ part, (List.prefix_append_right_inj front).mpr isPart, ?_, ?_⟩
      · rw [Region.extend, List.length_drop] at fits
        rw [List.length_append]
        omega
      · rw [EStateM.run_bind, writesFront.whole region frontFits]
        rw [Region.capacity_extend region frontFits, Region.extend_extend] at run
        exact run
    · rcases writesFront.short region (Nat.lt_of_not_le frontFits) with
        ⟨needed, part, isPart, fits, run⟩
      refine ⟨needed, part, isPart.trans (List.prefix_append front back), fits, ?_⟩
      rw [EStateM.run_bind, run]

theorem writes_word (value : UInt32) : (word value).Writes (Layout.word value).written := by
  rw [Layout.written_word]
  exact writes_raw _

theorem writes_tag [Tag Kind] [DecidableEq Kind] (kind : Kind) :
    (tag kind).Writes (Layout.tag kind).written :=
  writes_word _

/-- Data is written whenever its length has a word. -/
theorem writes_counted {data : Bytes} (short : data.length < UInt32.size) :
    (counted data).Writes (Layout.counted data).written := by
  rw [Layout.written_counted]
  apply (writes_raw _).congr
  intro region
  rw [run_counted, if_pos short]

theorem writes_words {values : Words} (short : values.count < UInt32.size) :
    (words values).Writes (Layout.words values).written := by
  rw [Layout.written_words]
  apply (writes_raw _).congr
  intro region
  rw [run_words, if_pos short]

/-! ## Where there is room -/

theorem fills_counted {data : Bytes} (short : data.length < UInt32.size) :
    (counted data).Fills (Word.toBytes (UInt32.ofNat data.length) ++ padded data) := by
  rw [← Layout.written_counted]
  exact (writes_counted short).whole

theorem fills_words {values : Words} (short : values.count < UInt32.size) :
    (words values).Fills (Word.toBytes (UInt32.ofNat values.count) ++ values.toBytes) := by
  rw [← Layout.written_words]
  exact (writes_words short).whole

theorem fills_fixedArray {α : Type} {item : α → Writing Unit} {bytes : α → Bytes}
    {items : List α} (each : ∀ value ∈ items, (item value).Fills (bytes value)) :
    (fixedArray item items).Fills (items.flatMap bytes) := by
  induction items with
  | nil => exact writes_pure.whole
  | cons first rest induction =>
      have later := induction fun value member => each value (List.mem_cons_of_mem _ member)
      exact (each first List.mem_cons_self).bind later

theorem fills_array {α : Type} {item : α → Writing Unit} {bytes : α → Bytes} {items : List α}
    (short : items.length < UInt32.size)
    (each : ∀ value ∈ items, (item value).Fills (bytes value)) :
    (array item items).Fills
      (Word.toBytes (UInt32.ofNat items.length) ++ items.flatMap bytes) := by
  intro region room
  have parts := (fills_raw (Word.toBytes (UInt32.ofNat items.length))).bind (fills_fixedArray each)
  rw [array, EStateM.run_bind, run_countWord, if_pos short]
  exact parts region room

end Writing

/-! ## The values of a message -/

open Writing

theorem UnixIdentity.writes_write {identity : UnixIdentity} (encodable : identity.Encodable) :
    identity.write.Writes identity.layout.written := by
  simp only [layout, Layout.written_append]
  exact (writes_word _).bind <| (writes_counted encodable.machine).bind <|
    (writes_word _).bind <| (writes_word _).bind (writes_words encodable.gids)

/-- A structured body ends on a word boundary, so the padding of the layout is
empty and its absence from the writing does no harm. Its parts are what has to
have words here: the length of the whole is written as a word in any case. -/
theorem Credential.writes_sys {identity : UnixIdentity} (encodable : identity.Encodable) :
    (sys identity).write.Writes (sys identity).layout.written := by
  have unpadded : Layout.padding identity.size = [] := by
    rw [Layout.padding, padLength_of_dvd identity.four_dvd_size]
    rfl
  simp only [layout, bodyLayout, bodySize, unpadded, List.append_nil, Layout.written_append]
  exact (writes_word _).bind <| (writes_word _).bind (UnixIdentity.writes_write encodable)

theorem Credential.writes_write {credential : Credential} (encodable : credential.Encodable) :
    credential.write.Writes credential.layout.written := by
  have raw {flavor : UInt32} {body : Bytes} (short : body.length < UInt32.size) :
      (do Writing.word flavor; Writing.counted body : Writing Unit).Writes
        (Layout.written (Layout.word flavor ++ Layout.counted body)) := by
    rw [Layout.written_append]
    exact (writes_word flavor).bind (writes_counted short)
  cases credential with
  | sys identity => exact writes_sys (UnixIdentity.encodable_of_size_lt encodable)
  | none body => exact layout_eq_counted (none body) rfl rfl ▸ raw encodable
  | short body => exact layout_eq_counted (short body) rfl rfl ▸ raw encodable
  | other flavor body plain =>
      exact layout_eq_counted (other flavor body plain) rfl rfl ▸ raw encodable

theorem VersionRange.writes_write (range : VersionRange) :
    range.write.Writes range.layout.written := by
  rw [layout, Layout.written_append]
  exact (writes_word _).bind (writes_word _)

theorem Outcome.writes_write (outcome : Outcome) :
    outcome.write.Writes outcome.layout.written := by
  rw [layout, Layout.written_append]
  refine (writes_tag _).bind ?_
  cases outcome with
  | success results =>
      rw [armLayout, Layout.written_data]
      exact writes_raw results
  | programMismatch versions => exact versions.writes_write
  | programUnavailable => exact writes_pure
  | procedureUnavailable => exact writes_pure
  | garbageArguments => exact writes_pure
  | systemError => exact writes_pure

theorem Rejection.writes_write (rejection : Rejection) :
    rejection.write.Writes rejection.layout.written := by
  rw [layout, Layout.written_append]
  refine (writes_tag _).bind ?_
  cases rejection with
  | rpcMismatch versions => exact versions.writes_write
  | authError status => exact writes_tag status

theorem Call.writes_write {call : Call}
    (encodable : ∀ credential ∈ call.credentials, credential.Encodable) :
    call.write.Writes call.layout.written := by
  have credential : call.credential.Encodable := encodable _ (by simp [credentials])
  have verifier : call.verifier.Encodable := encodable _ (by simp [credentials])
  simp only [layout, Layout.written_append]
  refine (writes_word _).bind <| (writes_word _).bind <| (writes_word _).bind <|
    (writes_word _).bind <| (Credential.writes_write credential).bind <|
    (Credential.writes_write verifier).bind ?_
  rw [Layout.written_data]
  exact writes_raw _

theorem Reply.writes_write {reply : Reply}
    (encodable : ∀ credential ∈ reply.credentials, credential.Encodable) :
    reply.write.Writes reply.layout.written := by
  rw [layout, Layout.written_append]
  refine (writes_tag _).bind ?_
  cases reply with
  | accepted verifier outcome =>
      rw [armLayout, Layout.written_append]
      exact (Credential.writes_write (encodable verifier (by simp [credentials]))).bind
        outcome.writes_write
  | denied rejection => exact rejection.writes_write

namespace Message

theorem writes_write {message : Message} (encodable : message.Encodable) :
    message.write.Writes message.layout.written := by
  simp only [layout, Layout.written_append]
  refine (writes_word _).bind <| (writes_tag _).bind ?_
  rcases message with ⟨xid, body⟩
  cases body with
  | call content => exact Call.writes_write encodable
  | reply content => exact Reply.writes_write encodable

/-- A message that fits is written over the front of the buffer. One that does
not fit leaves the buffer alone. -/
theorem run_writeInto {message : Message} (encodable : message.Encodable) (buffer : Bytes) :
    message.writeInto.run buffer =
      if message.size ≤ buffer.length then
        .ok message.size (message.layout.written ++ buffer.drop message.size)
      else .error (.messageTooLarge message.size buffer.length) buffer := by
  have writtenSize : message.layout.written.length = message.size := by simp
  change message.writeInto buffer = _
  rw [writeInto]
  by_cases fits : message.size ≤ buffer.length
  · have run := (writes_write encodable).whole (.ofBuffer buffer) (writtenSize.symm ▸ fits)
    rw [if_neg (Nat.not_lt_of_le fits), run, if_pos fits, ← writtenSize]
    rfl
  · rw [if_pos (Nat.lt_of_not_le fits), if_neg fits]

/-- The bytes of a message are what its layout has written. -/
theorem toBytes_eq {message : Message} (encodable : message.Encodable) :
    message.toBytes = .ok message.layout.written := by
  have sameSize : (Bytes.zeros message.size).length = message.size := Bytes.length_zeros _
  have nothingLeft : (Bytes.zeros message.size).drop message.size = [] :=
    List.drop_eq_nil_of_le (Nat.le_of_eq sameSize)
  rw [toBytes, run_writeInto encodable, if_pos (Nat.le_of_eq sameSize.symm), nothingLeft,
    List.append_nil]

end Message

end RpcWire
