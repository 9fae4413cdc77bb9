import DistributedCompilation.Codec.ClaimCodec
import DistributedCompilation.Lib.Exact

/-!
# Distributed Compilation — exact record codecs

A decoder of `codec.cpp` accepts nothing but what the encoder of the same name
writes. The rules of `Reader.Inverts` go through a decoder read by read and
take the encoder apart call by call; with the round trips they make the record
codecs inverse to each other (`record_codecs_inverse`).

The writer has one limit that no reader checks, the total of a record: what is
longer than `max_total_bytes` is read and cannot be written.
-/

namespace DistributedCompilation

open Reader Decoder LittleEndian

-- ---------------------------------------------------------------------------
-- Exact reads
-- ---------------------------------------------------------------------------

/-- Whatever `d` accepts are the calls of `write` for a value with the property
`P`, none of which throws for its own limit. -/
def Reader.Inverts {α : Type} (d : Reader α) (write : α → Record) (P : α → Prop) : Prop :=
  d.Exact (fun a => (write a).bytes) fun a => (write a).eachFits = true ∧ P a

namespace Reader

section Reads

variable {α : Type}

/-- A fixed-width number. -/
theorem run_need_decode {n : Nat} {g : Nat → α} {input rest : Bytes} {v : α}
    (h : (need n >>= fun raw => pure (g (decode raw))).run input = .ok (v, rest)) :
    ∃ m < 256 ^ n, v = g m ∧ input = encode n m ++ rest := by
  obtain ⟨raw, mid, hneed, hpure⟩ := run_bind_eq_ok.mp h
  obtain ⟨rfl, rfl⟩ := Prod.mk.inj (Except.ok.inj hpure)
  obtain ⟨rfl, rfl⟩ := exact_take n _ hneed
  refine ⟨decode raw, decode_lt raw, rfl, ?_⟩
  rw [encode_decode]
  rfl

theorem inverts_readU8 : readU8.Inverts (fun v => [.u8 v]) fun _ => True := by
  intro input rest v h
  obtain ⟨m, hm, rfl, rfl⟩ := run_need_decode h
  refine ⟨?_, rfl, trivial⟩
  simp [Field.bytes, encode]

theorem inverts_readU16 : readU16.Inverts (fun v => [.u16 v]) fun _ => True := by
  intro input rest v h
  obtain ⟨m, hm, rfl, rfl⟩ := run_need_decode h
  refine ⟨?_, rfl, trivial⟩
  show _ = (encode 2 (UInt16.ofNat m).toNat ++ []) ++ rest
  rw [UInt16.toNat_ofNat', Nat.mod_eq_of_lt (show m < 2 ^ 16 from hm), List.append_nil]

theorem inverts_readU32 : readU32.Inverts (fun v => [.u32 v]) fun _ => True := by
  intro input rest v h
  obtain ⟨m, hm, rfl, rfl⟩ := run_need_decode h
  refine ⟨?_, rfl, trivial⟩
  show _ = (encode 4 (UInt32.ofNat m).toNat ++ []) ++ rest
  rw [UInt32.toNat_ofNat', Nat.mod_eq_of_lt (show m < 2 ^ 32 from hm), List.append_nil]

theorem inverts_readU64 : readU64.Inverts (fun v => [.u64 v]) fun _ => True := by
  intro input rest v h
  obtain ⟨m, hm, rfl, rfl⟩ := run_need_decode h
  refine ⟨?_, rfl, trivial⟩
  show _ = (encode 8 (UInt64.ofNat m).toNat ++ []) ++ rest
  rw [UInt64.toNat_ofNat', Nat.mod_eq_of_lt (show m < 2 ^ 64 from hm), List.append_nil]

/-- What is read and then checked is still what is written. -/
theorem Inverts.check {β : Type} {d : Reader α} {write : α → Record} {P : α → Prop}
    {k : α → Reader β} {write' : β → Record} {Q : β → Prop} (h : d.Inverts write P)
    (hk : ∀ {a input rest b}, P a → (k a).run input = .ok (b, rest) →
      input = rest ∧ (write' b).bytes = (write a).bytes ∧ (write' b).eachFits = true ∧ Q b) :
    (d >>= k).Inverts write' Q := by
  intro input rest b hrun
  obtain ⟨a, mid, hfirst, hcheck⟩ := run_bind_eq_ok.mp hrun
  obtain ⟨rfl, -, ha⟩ := h hfirst
  obtain ⟨rfl, hbytes, hb⟩ := hk ha hcheck
  exact ⟨congrArg (· ++ mid) hbytes.symm, hb⟩

/-- A value made from what is read. -/
theorem Inverts.map {β : Type} {d : Reader α} {write : α → Record} {P : α → Prop} {g : α → β}
    {write' : β → Record} {Q : β → Prop} (h : d.Inverts write P)
    (hg : ∀ a, P a → (write' (g a)).bytes = (write a).bytes ∧ (write' (g a)).eachFits = true ∧
      Q (g a)) : (d >>= fun a => pure (g a)).Inverts write' Q := by
  refine h.check fun {a input rest b} ha hrun => ?_
  obtain ⟨rfl, rfl⟩ := Prod.mk.inj (Except.ok.inj hrun)
  exact ⟨rfl, hg a ha⟩

theorem inverts_readI64 : readI64.Inverts (fun v => [.i64 v]) fun _ => True := by
  refine inverts_readU64.map fun raw _ => ⟨?_, rfl, trivial⟩
  rw [Field.i64, UInt64.toUInt64_toInt64]

theorem inverts_readBool : readBool.Inverts (fun v => [.boolean v]) fun _ => True := by
  refine inverts_readU8.check fun {raw input rest v} _ hrun => ?_
  by_cases hlarge : raw > 1
  · rw [if_pos hlarge] at hrun
    cases hrun
  · rw [if_neg hlarge] at hrun
    obtain ⟨rfl, rfl⟩ := Prod.mk.inj (Except.ok.inj hrun)
    refine ⟨rfl, ?_, rfl, trivial⟩
    have hle : raw.toNat ≤ 1 := Nat.le_of_not_lt hlarge
    rcases Nat.le_one_iff_eq_zero_or_eq_one.mp hle with hzero | hone
    · obtain rfl : raw = 0 := UInt8.toNat_inj.mp hzero
      rfl
    · obtain rfl : raw = 1 := UInt8.toNat_inj.mp hone
      rfl

theorem inverts_readId {tag : IdTag} :
    (@readId tag).Inverts (fun v => [.id v]) fun v => v.isZero = false := by
  refine inverts_readU64.check fun {raw input rest v} _ hrun => ?_
  by_cases hzero : (raw == 0) = true
  · rw [if_pos hzero] at hrun
    cases hrun
  · rw [if_neg hzero] at hrun
    obtain ⟨rfl, rfl⟩ := Prod.mk.inj (Except.ok.inj hrun)
    refine ⟨rfl, rfl, ?_, ?_⟩
    · simpa [Field.id, Field.fits] using raw.toNat_lt
    · rw [Id.isZero, beq_eq_false_iff_ne]
      intro hvalue
      exact hzero (beq_iff_eq.mpr (UInt64.toNat_inj.mp hvalue))

theorem inverts_readOptionalId {tag : IdTag} :
    (@readOptionalId tag).Inverts (fun v => [.id v]) fun _ => True := by
  refine inverts_readU64.map fun raw _ => ⟨rfl, ?_, trivial⟩
  simpa [Field.id, Field.fits] using raw.toNat_lt

theorem inverts_readGen {tag : GenTag} :
    (@readGen tag).Inverts (fun v => [.gen v]) fun _ => True := by
  refine inverts_readU64.map fun raw _ => ⟨rfl, ?_, trivial⟩
  simpa [Field.gen, Field.fits] using raw.toNat_lt

theorem inverts_readEnum [DecidableEq α] [WireEnum α]
    (hdistinct : (WireEnum.values (α := α)).Nodup) :
    (readEnum (α := α)).Inverts (fun v => [.enum v]) fun _ => True := by
  refine inverts_readU8.check fun {raw input rest v} _ hrun => ?_
  cases hcode : WireEnum.ofCode (α := α) raw with
  | none =>
    rw [hcode] at hrun
    cases hrun
  | some value =>
    rw [hcode] at hrun
    obtain ⟨rfl, rfl⟩ := Prod.mk.inj (Except.ok.inj hrun)
    refine ⟨rfl, ?_, rfl, trivial⟩
    obtain ⟨hlt, rfl⟩ := List.getElem?_eq_some_iff.mp hcode
    rw [Field.enum, WireEnum.code, hdistinct.idxOf_getElem, UInt8.ofNat_toNat]

theorem inverts_readCode (subject : String) :
    (readCode subject).Inverts (fun v => [.u16 v.value]) fun _ => True := by
  refine inverts_readU16.check fun {raw input rest v} _ hrun => ?_
  by_cases hdomain : raw ≤ 94
  · rw [dif_pos hdomain] at hrun
    obtain ⟨rfl, rfl⟩ := Prod.mk.inj (Except.ok.inj hrun)
    exact ⟨rfl, rfl, rfl, trivial⟩
  · rw [dif_neg hdomain] at hrun
    cases hrun

theorem inverts_readList : readList.Inverts (fun n => [.list n]) fun _ => True := by
  refine inverts_readU32.check fun {raw input rest v} _ hrun => ?_
  by_cases hmany : raw.toNat > maxItems
  · rw [if_pos hmany] at hrun
    cases hrun
  · rw [if_neg hmany] at hrun
    obtain ⟨rfl, rfl⟩ := Prod.mk.inj (Except.ok.inj hrun)
    refine ⟨rfl, rfl, ?_, trivial⟩
    simpa [Field.fits] using hmany

theorem inverts_readDigest : readDigest.Inverts (fun v => [.digest v]) fun _ => True := by
  intro input rest v hrun
  obtain ⟨raw, mid, hneed, hcheck⟩ := run_bind_eq_ok.mp hrun
  obtain ⟨rfl, hlength⟩ := exact_take 32 _ hneed
  rw [dif_pos hlength] at hcheck
  obtain ⟨rfl, rfl⟩ := Prod.mk.inj (Except.ok.inj hcheck)
  exact ⟨by simp [Field.bytes], rfl, trivial⟩

theorem inverts_readStr : readStr.Inverts (fun v => [.str v]) fun _ => True := by
  intro input rest v hrun
  obtain ⟨length, mid, hlength, hcheck⟩ := run_bind_eq_ok.mp hrun
  obtain ⟨rfl, -⟩ := inverts_readU32 hlength
  by_cases hlong : length.toNat > maxStringBytes
  · rw [if_pos hlong] at hcheck
    cases hcheck
  · rw [if_neg hlong] at hcheck
    obtain ⟨rfl, hsize⟩ := exact_take _ _ hcheck
    refine ⟨?_, ?_, trivial⟩
    · simp [Field.bytes, hsize]
    · simpa [Field.fits, hsize] using hlong

theorem inverts_readDomain (tag : Bytes) :
    (readDomain tag).Inverts (fun _ => [.domain tag]) fun _ => True := by
  intro input rest v hrun
  obtain ⟨length, mid, hlength, hcheck⟩ := run_bind_eq_ok.mp hrun
  obtain ⟨rfl, -⟩ := inverts_readU8 hlength
  by_cases hlong : length.toNat > maxDomainTag
  · rw [if_pos hlong] at hcheck
    cases hcheck
  · rw [if_neg hlong] at hcheck
    obtain ⟨actual, mid, hneed, hsame⟩ := run_bind_eq_ok.mp hcheck
    obtain ⟨rfl, hsize⟩ := exact_take _ _ hneed
    by_cases hother : actual ≠ tag
    · rw [if_pos hother] at hsame
      cases hsame
    · rw [if_neg hother] at hsame
      obtain ⟨-, rfl⟩ := Prod.mk.inj (Except.ok.inj hsame)
      obtain rfl := not_not.mp hother
      refine ⟨?_, ?_, trivial⟩
      · simp [Field.bytes, hsize]
      · simpa [Field.fits, hsize] using hlong

theorem inverts_replicate {d : Reader α} {write : α → Record} {P : α → Prop}
    (h : d.Inverts write P) (n : Nat) :
    Inverts (Decoder.replicate d n) (fun items => items.flatMap write)
      fun items => items.length = n ∧ ∀ x ∈ items, P x := by
  intro input rest items hrun
  obtain ⟨rfl, hlength, hall⟩ := Exact.replicate h n hrun
  refine ⟨?_, ?_, hlength, fun x hx => (hall x hx).2⟩
  · exact congrArg (· ++ rest) (Record.bytes_flatMap items write).symm
  · rw [Record.eachFits_flatMap, List.all_eq_true]
    exact fun x hx => (hall x hx).1

/-- A counted list. -/
theorem inverts_readItems {d : Reader α} {write : α → Record} {P : α → Prop}
    (h : d.Inverts write P) :
    (readItems d).Inverts (fun items => writeList items write) fun items => ∀ x ∈ items, P x := by
  intro input rest items hrun
  obtain ⟨count, mid, hcount, hitems⟩ := run_bind_eq_ok.mp hrun
  obtain ⟨rfl, hfits, -⟩ := inverts_readList hcount
  obtain ⟨rfl, hmany, rfl, hall⟩ := inverts_replicate h count hitems
  refine ⟨?_, ?_, hall⟩
  · simp only [writeList, Field.count, Record.bytes_cons, Record.bytes_nil, List.append_nil,
      List.append_assoc]
  · simp only [writeList, Field.count, Record.eachFits_cons, Record.eachFits_nil, Bool.and_true]
      at hfits ⊢
    rw [hfits, hmany, Bool.and_self]

end Reads

-- ---------------------------------------------------------------------------
-- Decoders, read by read
-- ---------------------------------------------------------------------------

section Steps

variable {α β : Type} {g : β → Record} {Q : β → Prop}

namespace Inverts

/-- A decoder that returns what it read. -/
protected theorem pure {b : β} (hnil : g b = []) (hb : Q b) :
    (pure b : Reader β).Inverts g Q := by
  refine Exact.pure ?_ ⟨?_, hb⟩
  · rw [hnil, Record.bytes_nil]
  · rw [hnil, Record.eachFits_nil]

protected theorem fail (code : ErrorCode) (detail : Bytes) :
    (Reader.fail code detail : Reader β).Inverts g Q := Exact.fail _

/-- A part that has an encoder of its own. -/
protected theorem sub {d : Reader α} {write : α → Record} {P : α → Prop} {f : α → Reader β}
    {p : β → α} (h : d.Inverts write P)
    (hrest : ∀ a, P a → (f a).Inverts g fun b => p b = a ∧ Q b) :
    (d >>= f).Inverts (fun b => write (p b) ++ g b) Q := by
  intro input rest b hrun
  obtain ⟨a, mid, hfirst, hsecond⟩ := run_bind_eq_ok.mp hrun
  obtain ⟨rfl, hfits, ha⟩ := h hfirst
  obtain ⟨rfl, hmore, rfl, hb⟩ := hrest a ha hsecond
  refine ⟨?_, ?_, hb⟩
  · show (write (p b)).bytes ++ ((g b).bytes ++ rest) = (write (p b) ++ g b).bytes ++ rest
    rw [Record.bytes_append, List.append_assoc]
  · rw [Record.eachFits_append, hfits, hmore, Bool.and_self]

/-- The last part. -/
protected theorem last {d : Reader β} {write : β → Record} {P : β → Prop} (h : d.Inverts write P)
    (hP : ∀ b, P b → Q b) : d.Inverts write Q := by
  refine Exact.imp h fun b hb => ⟨hb.1, hP b hb.2⟩

variable {f : α → Reader β} {p : β → α}

protected theorem id {tag : IdTag} {f : Id tag → Reader β} {p : β → Id tag}
    (h : ∀ a, a.isZero = false → (f a).Inverts g fun b => p b = a ∧ Q b) :
    (readId >>= f).Inverts (fun b => .id (p b) :: g b) Q := .sub inverts_readId h

protected theorem optionalId {tag : IdTag} {f : Id tag → Reader β} {p : β → Id tag}
    (h : ∀ a, (f a).Inverts g fun b => p b = a ∧ Q b) :
    (readOptionalId >>= f).Inverts (fun b => .id (p b) :: g b) Q :=
  .sub inverts_readOptionalId fun a _ => h a

protected theorem gen {tag : GenTag} {f : Gen tag → Reader β} {p : β → Gen tag}
    (h : ∀ a, (f a).Inverts g fun b => p b = a ∧ Q b) :
    (readGen >>= f).Inverts (fun b => .gen (p b) :: g b) Q := .sub inverts_readGen fun a _ => h a

protected theorem digest {f : Digest256 → Reader β} {p : β → Digest256}
    (h : ∀ a, (f a).Inverts g fun b => p b = a ∧ Q b) :
    (readDigest >>= f).Inverts (fun b => .digest (p b) :: g b) Q :=
  .sub inverts_readDigest fun a _ => h a

protected theorem str {f : Bytes → Reader β} {p : β → Bytes}
    (h : ∀ a, (f a).Inverts g fun b => p b = a ∧ Q b) :
    (readStr >>= f).Inverts (fun b => .str (p b) :: g b) Q := .sub inverts_readStr fun a _ => h a

protected theorem boolean {f : Bool → Reader β} {p : β → Bool}
    (h : ∀ a, (f a).Inverts g fun b => p b = a ∧ Q b) :
    (readBool >>= f).Inverts (fun b => .boolean (p b) :: g b) Q :=
  .sub inverts_readBool fun a _ => h a

protected theorem u32 {f : UInt32 → Reader β} {p : β → UInt32}
    (h : ∀ a, (f a).Inverts g fun b => p b = a ∧ Q b) :
    (readU32 >>= f).Inverts (fun b => .u32 (p b) :: g b) Q := .sub inverts_readU32 fun a _ => h a

protected theorem u64 {f : UInt64 → Reader β} {p : β → UInt64}
    (h : ∀ a, (f a).Inverts g fun b => p b = a ∧ Q b) :
    (readU64 >>= f).Inverts (fun b => .u64 (p b) :: g b) Q := .sub inverts_readU64 fun a _ => h a

protected theorem i64 {f : Int64 → Reader β} {p : β → Int64}
    (h : ∀ a, (f a).Inverts g fun b => p b = a ∧ Q b) :
    (readI64 >>= f).Inverts (fun b => .i64 (p b) :: g b) Q := .sub inverts_readI64 fun a _ => h a

protected theorem code {subject : String} {f : ErrorCode → Reader β} {p : β → ErrorCode}
    (h : ∀ a, (f a).Inverts g fun b => p b = a ∧ Q b) :
    (readCode subject >>= f).Inverts (fun b => .u16 (p b).value :: g b) Q :=
  .sub (inverts_readCode subject) fun a _ => h a

protected theorem enum [DecidableEq α] [WireEnum α] (hdistinct : (WireEnum.values (α := α)).Nodup)
    (h : ∀ a, (f a).Inverts g fun b => p b = a ∧ Q b) :
    (readEnum >>= f).Inverts (fun b => .enum (p b) :: g b) Q :=
  .sub (inverts_readEnum hdistinct) fun a _ => h a

protected theorem list {f : Nat → Reader β} {p : β → Nat}
    (h : ∀ a, (f a).Inverts g fun b => p b = a ∧ Q b) :
    (readList >>= f).Inverts (fun b => .list (p b) :: g b) Q := .sub inverts_readList fun a _ => h a

protected theorem domain {tag : Bytes} {f : Unit → Reader β}
    (h : (f ()).Inverts g Q) :
    (readDomain tag >>= f).Inverts (fun b => .domain tag :: g b) Q :=
  .sub (p := fun _ => ()) (inverts_readDomain tag) fun _ _ => h.last fun _ hb => ⟨rfl, hb⟩

protected theorem items {d : Reader α} {write : α → Record} {P : α → Prop}
    {f : List α → Reader β} {p : β → List α} (hitem : d.Inverts write P)
    (h : ∀ items, (∀ x ∈ items, P x) → (f items).Inverts g fun b => p b = items ∧ Q b) :
    (readItems d >>= f).Inverts (fun b => writeList (p b) write ++ g b) Q :=
  .sub (inverts_readItems hitem) h

protected theorem replicate {d : Reader α} {write : α → Record} {P : α → Prop}
    {f : List α → Reader β} {p : β → List α} {n : Nat} (hitem : d.Inverts write P)
    (h : ∀ items, items.length = n → (∀ x ∈ items, P x) →
      (f items).Inverts g fun b => p b = items ∧ Q b) :
    Reader.Inverts (Decoder.replicate d n >>= f) (fun b => (p b).flatMap write ++ g b) Q :=
  .sub (P := fun items => items.length = n ∧ ∀ x ∈ items, P x) (inverts_replicate hitem n)
    fun items hitems => h items hitems.1 hitems.2

end Inverts

end Steps

end Reader

-- ---------------------------------------------------------------------------
-- Records
-- ---------------------------------------------------------------------------

theorem inverts_decodeContentRef : decodeContentRef.Inverts writeContentRef fun _ => True := by
  show Inverts _ (fun v => writeContentRef v) _
  unfold decodeContentRef writeContentRef
  exact .digest fun digest => .u64 fun size => .pure rfl ⟨rfl, rfl, trivial⟩

theorem inverts_decodeLease : decodeLease.Inverts encodeLease CompileLease.Acceptable := by
  show Inverts _ (fun v => encodeLease v) _
  unfold decodeLease encodeLease
  refine .id fun id hid => .gen fun generation => .id fun compilation hcompilation =>
    .gen fun compilationGeneration => .id fun unit hunit => .id fun attempt hattempt =>
    .id fun worker hworker => .id fun workerBoot hboot => .gen fun workerGeneration =>
    .gen fun epoch => .i64 fun issuedAt => .boolean fun revoked => .str fun revocationReason => ?_
  refine .pure rfl ?_
  simp [CompileLease.Acceptable, *]

theorem inverts_decodeValidationCheck : decodeValidationCheck.Inverts
    (fun check => [.str check.check, .enum check.outcome, .str check.detail]) fun _ => True := by
  unfold decodeValidationCheck
  exact .str fun check => .enum (by decide) fun outcome => .str fun detail =>
    .pure rfl ⟨rfl, rfl, rfl, trivial⟩

theorem inverts_decodeValidationReport :
    decodeValidationReport.Inverts encodeValidationReport ValidationReport.Acceptable := by
  show Inverts _ (fun v => encodeValidationReport v) _
  unfold decodeValidationReport
  simp only [encodeValidationReport, writeList, Field.count, Record.join_cons, Record.join_nil,
    List.cons_append, List.nil_append, List.append_nil]
  refine .optionalId fun id => .list fun count => ?_
  by_cases hmany : 4096 < count
  · rw [if_pos hmany]
    exact .fail _ _
  · rw [if_neg hmany]
    refine .replicate inverts_decodeValidationCheck fun checks hcount _ =>
      .enum (by decide) fun aggregate => .str fun summary => .pure rfl ?_
    have hfew : checks.length ≤ 4096 := by omega
    exact ⟨rfl, rfl, rfl, hcount, rfl, hfew⟩

theorem inverts_decodeAttempt : decodeAttempt.Inverts encodeAttempt CompilationAttempt.Acceptable := by
  show Inverts _ (fun v => encodeAttempt v) _
  unfold decodeAttempt
  simp only [encodeAttempt, Record.join_cons, Record.join_nil, List.cons_append, List.nil_append,
    List.append_nil]
  refine .id fun id hid => .gen fun generation => .id fun compilation hcompilation =>
    .gen fun compilationGeneration => .id fun unit hunit => .id fun worker hworker =>
    .id fun workerBoot hboot => .gen fun workerGeneration => .id fun lease hlease =>
    .gen fun leaseGeneration => .gen fun epoch => .enum (by decide) fun state =>
    .u32 fun ordinal => .boolean fun speculative => .i64 fun createdAt => .i64 fun startedAt =>
    .i64 fun finishedAt => .code fun failure => .str fun failureDetail =>
    .sub inverts_decodeValidationReport fun validation hvalidation =>
    .sub inverts_decodeContentRef fun candidate _ => .digest fun candidateDigest =>
    .optionalId fun artifact => .u64 fun compilerWallMillis => .str fun compilerInvocation =>
    .str fun compilerVersionString => .pure rfl ?_
  simp [CompilationAttempt.Acceptable, *]

theorem inverts_decodeProvenance : decodeProvenance.Inverts encodeProvenance Provenance.Acceptable := by
  show Inverts _ (fun v => encodeProvenance v) _
  unfold decodeProvenance
  simp only [encodeProvenance, Record.join_cons, Record.join_nil, List.cons_append, List.nil_append,
    List.append_nil]
  refine .id fun id hid => .gen fun generation => .id fun compilation hcompilation =>
    .gen fun compilationGeneration => .id fun unit hunit => .id fun attempt hattempt =>
    .gen fun attemptGeneration => .gen fun epoch => .id fun worker hworker =>
    .id fun workerBoot hboot => .gen fun workerGeneration => .id fun lease hlease =>
    .gen fun leaseGeneration => .id fun requestId hrequest => .digest fun requestIdentity =>
    .digest fun unitIdentity => .sub inverts_decodeContentRef fun artifact _ =>
    .digest fun sourceIdentity => .digest fun irIdentity => .digest fun dependencyIdentity =>
    .digest fun toolchainIdentity => .digest fun targetIdentity =>
    .digest fun specializationIdentity => .digest fun policyIdentity =>
    .id fun validation hvalidation => .enum (by decide) fun evidence =>
    .str fun compilerInvocation => .str fun compilerVersionString =>
    .u64 fun compilerWallMillis => .i64 fun producedAt => .pure rfl ?_
  simp [Provenance.Acceptable, *]

theorem inverts_decodeCommit : decodeCommit.Inverts encodeCommit ArtifactCommit.Acceptable := by
  show Inverts _ (fun v => encodeCommit v) _
  unfold decodeCommit encodeCommit
  refine .id fun id hid => .gen fun generation => .id fun compilation hcompilation =>
    .gen fun compilationGeneration => .id fun unit hunit => .id fun artifact hartifact =>
    .gen fun artifactGeneration => .digest fun artifactDigest => .id fun provenance hprovenance =>
    .id fun validation hvalidation => .gen fun epoch => .id fun worker hworker =>
    .id fun workerBoot hboot => .id fun attempt hattempt => .i64 fun committedAt =>
    .boolean fun deduplicated => .boolean fun superseded => .pure rfl ?_
  simp [ArtifactCommit.Acceptable, *]

theorem inverts_decodeArtifact : decodeArtifact.Inverts encodeArtifact ArtifactDescriptor.Acceptable := by
  show Inverts _ (fun v => encodeArtifact v) _
  unfold decodeArtifact
  simp only [encodeArtifact, Record.join_cons, Record.join_nil, List.cons_append, List.nil_append,
    List.append_nil]
  refine .id fun id hid => .gen fun generation => .id fun compilation hcompilation =>
    .gen fun compilationGeneration => .id fun unit hunit => .enum (by decide) fun kind =>
    .sub inverts_decodeContentRef fun content _ => .str fun logicalName =>
    .digest fun targetIdentity => .digest fun toolchainIdentity =>
    .digest fun dependencyIdentity => .digest fun specializationIdentity => .pure rfl ?_
  simp [ArtifactDescriptor.Acceptable, *]

theorem inverts_decodeCacheEntry : decodeCacheEntry.Inverts encodeCacheEntry CacheEntry.Acceptable := by
  show Inverts _ (fun v => encodeCacheEntry v) _
  unfold decodeCacheEntry
  simp only [encodeCacheEntry, Record.join_cons, Record.join_nil, List.cons_append, List.nil_append,
    List.append_nil]
  refine .id fun id hid => .gen fun generation => .digest fun unitIdentity =>
    .id fun compilation hcompilation => .gen fun compilationGeneration =>
    .sub inverts_decodeContentRef fun artifact _ => .id fun artifactId hartifact =>
    .id fun provenance hprovenance => .id fun validation hvalidation =>
    .digest fun sourceIdentity => .digest fun dependencyIdentity =>
    .digest fun toolchainIdentity => .gen fun toolchainGeneration =>
    .digest fun targetIdentity => .gen fun targetGeneration =>
    .digest fun specializationIdentity => .digest fun policyIdentity =>
    .digest fun environmentIdentity => .id fun commit hcommit => .i64 fun createdAt =>
    .boolean fun invalidated => .str fun invalidationReason => .u32 fun hitCount => .pure rfl ?_
  simp [CacheEntry.Acceptable, *]

theorem inverts_decodeNegativeCache : decodeNegativeCache.Inverts encodeNegativeCache NegativeCacheEntry.Acceptable := by
  show Inverts _ (fun v => encodeNegativeCache v) _
  unfold decodeNegativeCache encodeNegativeCache
  refine .id fun id hid => .digest fun unitIdentity => .enum (by decide) fun reason =>
    .code fun failure => .str fun diagnostic => .digest fun toolchainIdentity =>
    .gen fun toolchainGeneration => .digest fun targetIdentity => .gen fun targetGeneration =>
    .digest fun specializationIdentity => .digest fun policyIdentity => .i64 fun createdAt =>
    .pure rfl ?_
  simp [NegativeCacheEntry.Acceptable, *]

theorem inverts_decodeIntermediate : decodeIntermediate.Inverts encodeIntermediate IntermediateArtifact.Acceptable := by
  show Inverts _ (fun v => encodeIntermediate v) _
  unfold decodeIntermediate
  simp only [encodeIntermediate, Record.join_cons, Record.join_nil, List.cons_append, List.nil_append,
    List.append_nil]
  refine .id fun id hid => .gen fun generation => .enum (by decide) fun kind =>
    .sub inverts_decodeContentRef fun content _ => .digest fun provenanceIdentity =>
    .digest fun toolchainIdentity => .digest fun targetIdentity =>
    .digest fun dependencyIdentity => .id fun compilation hcompilation =>
    .gen fun compilationGeneration => .boolean fun authoritative => .pure rfl ?_
  simp [IntermediateArtifact.Acceptable, *]

theorem inverts_decodeOptionalCommit :
    decodeOptionalCommit.Inverts encodeOptionalCommit fun v => ∀ k ∈ v, k.Acceptable := by
  intro input rest v hrun
  obtain ⟨hasCommit, mid, hflag, hcommit⟩ := run_bind_eq_ok.mp hrun
  obtain ⟨rfl, -⟩ := inverts_readBool hflag
  cases hasCommit with
  | false =>
    obtain ⟨rfl, rfl⟩ := Prod.mk.inj (Except.ok.inj hcommit)
    exact ⟨rfl, rfl, fun k hk => absurd hk (Option.not_mem_none k)⟩
  | true =>
    obtain ⟨commit, mid, hdecode, hpure⟩ := run_bind_eq_ok.mp hcommit
    obtain ⟨rfl, rfl⟩ := Prod.mk.inj (Except.ok.inj hpure)
    obtain ⟨rfl, hfits, hk⟩ := inverts_decodeCommit hdecode
    refine ⟨?_, hfits, ?_⟩
    · rfl
    · rintro k ⟨⟩
      exact hk

theorem inverts_decodeCompilation : decodeCompilation.Inverts encodeCompilation CompilationRecord.Acceptable := by
  show Inverts _ (fun v => encodeCompilation v) _
  unfold decodeCompilation
  simp only [encodeCompilation, Record.join_cons, Record.join_nil, List.cons_append, List.nil_append,
    List.append_nil]
  refine .id fun id hid => .gen fun generation => .id fun unit hunit =>
    .gen fun unitGeneration => .digest fun unitIdentity => .id fun requestId hrequest =>
    .gen fun requestGeneration => .digest fun requestIdentity => .digest fun sourceIdentity =>
    .digest fun dependencyIdentity => .digest fun toolchainIdentity =>
    .digest fun targetIdentity => .digest fun specializationIdentity =>
    .digest fun policyIdentity => .digest fun environmentIdentity =>
    .gen fun sourceGeneration => .gen fun irGeneration => .gen fun dependencyGeneration =>
    .gen fun toolchainGeneration => .gen fun targetGeneration =>
    .gen fun specializationGeneration => .gen fun policyGeneration =>
    .enum (by decide) fun outputKind => .enum (by decide) fun reproducibility =>
    .enum (by decide) fun state => .items inverts_readId fun attempts hattempts =>
    .optionalId fun currentAttempt => .u32 fun attemptOrdinalCounter =>
    .sub inverts_decodeOptionalCommit fun commit hcommit =>
    .items inverts_decodeContentRef fun divergentCandidates _ =>
    .boolean fun reproducibilityViolation => .str fun failureDetail => .code fun failure =>
    .boolean fun cacheHit => .i64 fun createdAt => .i64 fun updatedAt => .u32 fun unitIndex =>
    .u32 fun parentUnitIndex => .boolean fun isRoot => .pure rfl ?_
  simp only [true_and]
  exact ⟨hid, hunit, hrequest, hattempts, hcommit⟩

theorem inverts_decodeJob : decodeJob.Inverts encodeJob JobRecord.Acceptable := by
  show Inverts _ (fun v => encodeJob v) _
  unfold decodeJob
  simp only [encodeJob, Record.join_cons, Record.join_nil, List.cons_append, List.nil_append,
    List.append_nil]
  refine .id fun requestId hrequest => .gen fun requestGeneration =>
    .digest fun requestIdentity => .items inverts_readId fun units hunits =>
    .u32 fun rootIndex => .items inverts_readU32 fun mandatoryUnits _ =>
    .boolean fun committed => .optionalId fun committedUnit => .code fun failure =>
    .str fun failureDetail => .i64 fun createdAt => .pure rfl ?_
  simp only [true_and]
  exact ⟨hrequest, hunits⟩

theorem inverts_readAuthorityClaim : readAuthorityClaim.Inverts writeAuthorityClaim AuthorityClaim.Acceptable := by
  show Inverts _ (fun v => writeAuthorityClaim v) _
  unfold readAuthorityClaim writeAuthorityClaim
  refine .domain (.gen fun epoch => .id fun compilation hcompilation =>
    .gen fun compilationGeneration => .id fun unit hunit => .gen fun unitGeneration =>
    .id fun attempt hattempt => .gen fun attemptGeneration => .id fun worker hworker =>
    .id fun workerBoot hboot => .gen fun workerGeneration => .id fun lease hlease =>
    .gen fun leaseGeneration => .gen fun sourceGeneration => .gen fun irGeneration =>
    .gen fun dependencyGeneration => .gen fun toolchainGeneration =>
    .gen fun targetGeneration => .gen fun specializationGeneration =>
    .gen fun policyGeneration => .gen fun cacheGeneration => .digest fun requestIdentity =>
    .digest fun unitIdentity => .pure rfl ?_)
  simp [AuthorityClaim.Acceptable, *]

-- ---------------------------------------------------------------------------
-- Inverse codecs
-- ---------------------------------------------------------------------------

/-- The decoder and the encoder of a record kind are inverse to each other on
the values with `ok`. -/
structure Codec {α : Type} (decode : Reader α) (encode : α → Record) (ok : α → Prop) : Prop where
  /-- what is written is read back, whatever follows -/
  reads : ∀ x suffix, writes (encode x) = .ok () → ok x →
    decode.run ((encode x).bytes ++ suffix) = .ok (x, suffix)
  /-- what is read is what would be written, call for call -/
  consumed : ∀ input x rest, decode.run input = .ok (x, rest) →
    input = (encode x).bytes ++ rest ∧ (encode x).eachFits = true ∧ ok x
  /-- the writer stops at its total -/
  total : ∀ input x rest, decode.run input = .ok (x, rest) →
    (writes (encode x) = .ok () ↔ input.length - rest.length ≤ maxTotalBytes)

theorem writes_eq_ok {r : Record} :
    writes r = .ok () ↔ r.eachFits = true ∧ r.bytes.length ≤ maxTotalBytes := by
  unfold writes Record.fits
  by_cases h : (r.eachFits && decide (r.bytes.length ≤ maxTotalBytes)) = true
  · rw [if_pos h]
    rw [Bool.and_eq_true, decide_eq_true_eq] at h
    exact ⟨fun _ => h, fun _ => rfl⟩
  · rw [if_neg h]
    rw [Bool.and_eq_true, decide_eq_true_eq] at h
    exact ⟨nofun, fun hok => absurd hok h⟩

theorem Codec.of_inverts {α : Type} {decode : Reader α} {encode : α → Record} {ok : α → Prop}
    [DecidablePred ok] (hinverts : decode.Inverts encode ok)
    (hparse : ∀ x rest, (encode x).eachFits = true →
      decode.parse ((encode x).bytes ++ rest) = if ok x then some (x, rest) else none) :
    Codec decode encode ok where
  reads x suffix hwrites hok := by
    refine run_of_parse ?_
    rw [hparse x suffix (writes_eq_ok.mp hwrites).1, if_pos hok]
  consumed input x rest hrun := hinverts hrun
  total input x rest hrun := by
    obtain ⟨rfl, hfits, -⟩ := hinverts hrun
    rw [writes_eq_ok, List.length_append, Nat.add_sub_cancel]
    exact ⟨fun h => h.2, fun h => ⟨hfits, h⟩⟩

/-- **Record codecs are inverse to each other** up to the total of the writer. -/
theorem record_codecs_inverse :
    Codec decodeLease encodeLease CompileLease.Acceptable ∧
    Codec decodeValidationReport encodeValidationReport ValidationReport.Acceptable ∧
    Codec decodeAttempt encodeAttempt CompilationAttempt.Acceptable ∧
    Codec decodeProvenance encodeProvenance Provenance.Acceptable ∧
    Codec decodeCommit encodeCommit ArtifactCommit.Acceptable ∧
    Codec decodeArtifact encodeArtifact ArtifactDescriptor.Acceptable ∧
    Codec decodeCacheEntry encodeCacheEntry CacheEntry.Acceptable ∧
    Codec decodeNegativeCache encodeNegativeCache NegativeCacheEntry.Acceptable ∧
    Codec decodeIntermediate encodeIntermediate IntermediateArtifact.Acceptable ∧
    Codec decodeCompilation encodeCompilation CompilationRecord.Acceptable ∧
    Codec decodeJob encodeJob JobRecord.Acceptable ∧
    Codec readAuthorityClaim writeAuthorityClaim AuthorityClaim.Acceptable := by
  refine ⟨?_, ?_, ?_, ?_, ?_, ?_, ?_, ?_, ?_, ?_, ?_, ?_⟩
  · exact .of_inverts inverts_decodeLease parse_decodeLease
  · exact .of_inverts inverts_decodeValidationReport parse_decodeValidationReport
  · exact .of_inverts inverts_decodeAttempt parse_decodeAttempt
  · exact .of_inverts inverts_decodeProvenance parse_decodeProvenance
  · exact .of_inverts inverts_decodeCommit parse_decodeCommit
  · exact .of_inverts inverts_decodeArtifact parse_decodeArtifact
  · exact .of_inverts inverts_decodeCacheEntry parse_decodeCacheEntry
  · exact .of_inverts inverts_decodeNegativeCache parse_decodeNegativeCache
  · exact .of_inverts inverts_decodeIntermediate parse_decodeIntermediate
  · exact .of_inverts inverts_decodeCompilation parse_decodeCompilation
  · exact .of_inverts inverts_decodeJob parse_decodeJob
  · exact .of_inverts inverts_readAuthorityClaim parse_readAuthorityClaim

-- ---------------------------------------------------------------------------
-- A report past the total
-- ---------------------------------------------------------------------------

/-- A report of `count` checks with details of `size` bytes. -/
def ValidationReport.ofSize (count size : Nat) : ValidationReport :=
  { checks := List.replicate count { detail := List.replicate size 0 } }

theorem ValidationReport.ofSize_eachFits {count size : Nat} (hcount : count ≤ maxItems)
    (hsize : size ≤ maxStringBytes) : (encodeValidationReport (ofSize count size)).eachFits = true := by
  simp only [encodeValidationReport, writeList, ofSize, Record.join_cons, Record.join_nil,
    Record.eachFits_append, Record.eachFits_cons, Record.eachFits_flatMap, Record.eachFits_nil,
    Bool.and_true, Bool.and_eq_true, List.all_eq_true]
  refine ⟨rfl, ⟨?_, fun x hx => ?_⟩, rfl, rfl⟩
  · simpa [Field.count, Field.fits] using hcount
  · rw [List.eq_of_mem_replicate hx]
    refine ⟨rfl, rfl, ?_⟩
    simpa [Field.fits] using hsize

theorem ValidationReport.ofSize_length (count size : Nat) :
    count * size ≤ (encodeValidationReport (ofSize count size)).bytes.length := by
  have hcheck : ∀ check : ValidationCheck, check.detail.length ≤
      (Record.bytes [.str check.check, .enum check.outcome, .str check.detail]).length := by
    intro check
    simp only [Record.bytes_cons, Record.bytes_nil, List.length_append, Field.bytes]
    omega
  have hchecks : count * size ≤ (Record.bytes ((ofSize count size).checks.flatMap fun check =>
      [.str check.check, .enum check.outcome, .str check.detail])).length := by
    have hone := hcheck { detail := List.replicate size 0 }
    rw [List.length_replicate] at hone
    rw [Record.bytes_flatMap, List.length_flatMap, ofSize, List.map_replicate, List.sum_replicate,
      smul_eq_mul]
    exact Nat.mul_le_mul_left count hone
  simp only [encodeValidationReport, writeList, Record.join_cons, Record.join_nil,
    Record.bytes_append, Record.bytes_cons, List.length_append]
  omega

/-- A report of 257 checks with details of a mebibyte is read and cannot be written. -/
theorem not_record_codecs_inverse :
    ¬∀ input x rest, decodeValidationReport.run input = .ok (x, rest) →
      writes (encodeValidationReport x) = .ok () ∧
        input = (encodeValidationReport x).bytes ++ rest := by
  intro hall
  obtain ⟨count, size, hfew, hsize, htotal⟩ : ∃ count size, count ≤ 4096 ∧
      size ≤ maxStringBytes ∧ maxTotalBytes < count * size :=
    ⟨257, maxStringBytes, by decide, Nat.le_refl _, by decide⟩
  have hmany : count ≤ maxItems := Nat.le_trans hfew (by decide)
  have hfits := ValidationReport.ofSize_eachFits hmany hsize
  have hread : decodeValidationReport.run
      ((encodeValidationReport (.ofSize count size)).bytes ++ []) =
      .ok (.ofSize count size, []) := by
    refine run_of_parse ?_
    rw [parse_decodeValidationReport _ [] hfits, if_pos]
    show (List.replicate count _).length ≤ 4096
    rw [List.length_replicate]
    exact hfew
  have hshort := (writes_eq_ok.mp (hall _ _ _ hread).1).2
  have hlong := ValidationReport.ofSize_length count size
  omega

end DistributedCompilation
