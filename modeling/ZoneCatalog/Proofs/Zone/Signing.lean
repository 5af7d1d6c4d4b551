import ZoneCatalog.Proofs.Dnssec.Pairs
import ZoneCatalog.Proofs.Dnssec.SignedData
import ZoneCatalog.Proofs.Name.Lower
import ZoneCatalog.Proofs.Store.Runs
import ZoneCatalog.Zone.Signing

/-! The keys of a zone as they are loaded, over every store: what they are if they can be had, and
what is wrong with what is stored if they cannot. -/
namespace ZoneCatalog

open Program (Event)
open Fallible (Meets Served)

variable {keys : StoreKeys} {zone : String} {role : KeyRole} {now : Seconds} {h : List Event}
  {apex : DomainName} {zsk ksk : StoredKey} {s : ZoneSigning} {cause : DnssecError}

/-! What is read. -/

private def halfOf (key : String) : Option String → Except DnssecError String
  | some text => .ok text
  | none => .error (.missingKey key)

private theorem loadHalf_eq (key : String) : loadHalf key =
    Fallible.request .store (.get key) >>= fun stored => Fallible.ofExcept (halfOf key stored) := by
  refine congrArg (Fallible.request DnssecError.store (.get key) >>= ·) (funext fun stored => ?_)
  cases stored <;> rfl

theorem loadHalf_meets {asks : StoreRequest → Prop} {key : String} (asked : asks (.get key)) :
    Meets .store asks (loadHalf key)
    (fun h text => h = [.answered (.get key) (.ok (some text))])
    (fun h cause => h = [.answered (.get key) (.ok none)] ∧ cause = .missingKey key) := by
  rw [loadHalf_eq]
  refine ((Meets.request asked).bind fun (stored : Option String) =>
    .ofExcept (halfOf key stored)).mono ?_ ?_
  · rintro _ text ⟨_, _, stored, rfl, rfl, rfl, half⟩
    cases stored with
    | none => cases half
    | some text => cases half; rfl
  · rintro _ cause (⟨⟨⟩⟩ | ⟨_, _, stored, rfl, rfl, rfl, half⟩)
    cases stored with
    | none => cases half; exact ⟨rfl, rfl⟩
    | some text => cases half

/-- Requests for halves of the keys of a zone. -/
def AsksKey (keys : StoreKeys) (zone : String) (request : StoreRequest) : Prop :=
  ∃ role half, request = .get (keys.zoneKey zone role half)

/-- A half of a key was answered with a text. -/
def Told (h : List Event) (keys : StoreKeys) (zone : String) (role : KeyRole) (half : KeyHalf)
    (text : String) : Prop :=
  .answered (.get (keys.zoneKey zone role half)) (.ok (some text)) ∈ h

/-- The key is what its halves say. -/
def StoredKey.Read (key : StoredKey) (h : List Event) (keys : StoreKeys) (zone : String)
    (role : KeyRole) : Prop :=
  (∃ text, Told h keys zone role .published text ∧
    Dnskey.parse (keys.zoneKey zone role .published) text = .ok key.published) ∧
  ∃ text, Told h keys zone role .secret text ∧
    PrivateKey.parse (keys.zoneKey zone role .secret) text = .ok key.secret

/-- A half of a key is missing, or says nothing of use. -/
inductive StoredKey.Unreadable (h : List Event) (keys : StoreKeys) (zone : String)
    (role : KeyRole) : DnssecError → Prop where
  | missing {half : KeyHalf}
      (absent : .answered (.get (keys.zoneKey zone role half)) (.ok none) ∈ h) :
      Unreadable h keys zone role (.missingKey (keys.zoneKey zone role half))
  | published {text : String} {cause : DnssecError} (told : Told h keys zone role .published text)
      (bad : Dnskey.parse (keys.zoneKey zone role .published) text = .error cause) :
      Unreadable h keys zone role cause
  | secret {text : String} {cause : DnssecError} (told : Told h keys zone role .secret text)
      (bad : PrivateKey.parse (keys.zoneKey zone role .secret) text = .error cause) :
      Unreadable h keys zone role cause

theorem StoredKey.Read.mono {key : StoredKey} {h' : List Event} (read : key.Read h keys zone role)
    (sub : h ⊆ h') : key.Read h' keys zone role := by
  obtain ⟨⟨published, toldPublished, readPublished⟩, secret, toldSecret, readSecret⟩ := read
  exact ⟨⟨published, sub toldPublished, readPublished⟩, secret, sub toldSecret, readSecret⟩

theorem StoredKey.Unreadable.mono {h' : List Event} (bad : Unreadable h keys zone role cause)
    (sub : h ⊆ h') : Unreadable h' keys zone role cause := by
  cases bad with
  | missing absent => exact .missing (sub absent)
  | published told bad => exact .published (sub told) bad
  | secret told bad => exact .secret (sub told) bad

theorem StoredKey.load_meets (keys : StoreKeys) (zone : String) (role : KeyRole) :
    Meets .store (AsksKey keys zone) (load keys zone role)
      (fun h key => key.Read h keys zone role)
      (fun h cause => Unreadable h keys zone role cause) := by
  refine ((loadHalf_meets ⟨role, .published, rfl⟩).bind fun publishedText =>
    (loadHalf_meets ⟨role, .secret, rfl⟩).bind fun secretText => .ofExcept _).mono ?_ ?_
  · rintro _ key ⟨_, _, publishedText, rfl, rfl, _, _, secretText, rfl, rfl, rfl, made⟩
    obtain ⟨published, readPublished, made⟩ := Except.bind_eq_ok.1 made
    obtain ⟨secret, readSecret, made⟩ := Except.bind_eq_ok.1 made
    cases made
    exact ⟨⟨publishedText, by simp [Told], readPublished⟩, secretText, by simp [Told], readSecret⟩
  · rintro _ cause (⟨rfl, rfl⟩ | ⟨_, _, publishedText, rfl, rfl, rest⟩)
    · exact .missing (List.mem_singleton.2 rfl)
    · rcases rest with ⟨rfl, rfl⟩ | ⟨_, _, secretText, rfl, rfl, rfl, made⟩
      · exact .missing (by simp)
      · rcases Except.bind_eq_error.1 made with bad | ⟨published, -, made⟩
        · refine .published (?_ : Told _ keys zone role .published publishedText) bad
          simp [Told]
        · rcases Except.bind_eq_error.1 made with bad | ⟨secret, -, made⟩
          · refine .secret (?_ : Told _ keys zone role .secret secretText) bad
            simp [Told]
          · cases made

namespace ZoneSigning

/-! What is made of it. -/

/-- The keys of a zone fit what is stored, and the signature over them fits the keys. -/
structure Consistent (s : ZoneSigning) (apex : DomainName) (now : Seconds)
    (zsk ksk : StoredKey) : Prop where
  keys : s.keySet.keys = [s.zsk.dnskey, s.ksk.dnskey]
  zskRecord : s.zsk.dnskey = { zsk.published with flags := 256, ttl := ksk.published.ttl }
  kskRecord : s.ksk.dnskey = { ksk.published with flags := 257 }
  zskOwner : s.zsk.dnskey.owner.same apex
  kskOwner : s.ksk.dnskey.owner.same apex
  zskPair : s.zsk.signer.Pairs s.zsk.dnskey zsk.secret
  kskPair : s.ksk.signer.Pairs s.ksk.dnskey ksk.secret
  window : s.ksk.inception = now.earlier inceptionOffset ∧
    s.ksk.expiration = now.later expirationOffset
  typeCovered : s.keySet.rrsig.typeCovered = .dnskey
  algorithm : s.keySet.rrsig.algorithm = s.ksk.dnskey.algorithm
  owner : s.keySet.rrsig.owner = apex.lower
  labels : s.keySet.rrsig.labels.toNat = apex.countedLabels
  originalTtl : s.keySet.rrsig.originalTtl = ksk.published.ttl
  inception : s.keySet.rrsig.inception.toNat = s.ksk.inception.toNat % UInt32.size
  expiration : s.keySet.rrsig.expiration.toNat = s.ksk.expiration.toNat % UInt32.size
  keyTag : s.keySet.rrsig.keyTag = s.ksk.dnskey.keyTag
  signerName : s.keySet.rrsig.signerName.labels = apex.lower.labels
  signature : ∃ message,
    s.keySet.rrsig.signedData [s.zsk.dnskey.rdata, s.ksk.dnskey.rdata] = .ok message ∧
      s.ksk.signer.sign message = .ok s.keySet.rrsig.signature

private theorem checkOwner_eq_ok {key : StoredKey} {u : Unit}
    (h : key.checkOwner zone apex = .ok u) : key.published.owner.same apex := by
  rw [StoredKey.checkOwner] at h
  split at h
  · assumption
  · cases h

theorem ofStored_eq_ok (h : ofStored zone apex.lower now zsk ksk = .ok s) :
    s.Consistent apex now zsk ksk := by
  obtain ⟨_, zskOwner, h⟩ := Except.bind_eq_ok.1 h
  obtain ⟨_, kskOwner, h⟩ := Except.bind_eq_ok.1 h
  obtain ⟨zskSigner, zskParts, h⟩ := Except.bind_eq_ok.1 h
  obtain ⟨kskSigner, kskParts, h⟩ := Except.bind_eq_ok.1 h
  obtain ⟨rrsig, signed, h⟩ := Except.bind_eq_ok.1 h
  cases h
  have kskPair := SigningKey.ofParts_eq_ok.1 kskParts
  obtain ⟨message, signature, covered, made, rfl⟩ := Rrsig.sign_eq_ok.1 signed
  have kskOwner := DomainName.same_lower ▸ checkOwner_eq_ok kskOwner
  exact {
    keys := rfl
    zskRecord := rfl
    kskRecord := rfl
    zskOwner := DomainName.same_lower ▸ checkOwner_eq_ok zskOwner
    kskOwner
    zskPair := SigningKey.ofParts_eq_ok.1 zskParts
    kskPair
    window := by constructor <;> dsimp only [ZoneKey.loadedAt]
    typeCovered := rfl
    algorithm := kskPair.algorithm
    owner := apex.lower_lower
    labels := by
      rw [← apex.countedLabels_lower]
      exact Nat.mod_eq_of_lt apex.lower.countedLabels_lt
    originalTtl := rfl
    inception := Seconds.toNat_serial _
    expiration := Seconds.toNat_serial _
    keyTag := rfl
    signerName := DomainName.same_iff.1 kskOwner
    signature := ⟨message, covered, made⟩ }

/-- Keys that were read cannot be used: one of them is not the zone's own, its halves do not belong
together, or there is no signing with it. -/
inductive Unusable (zone : String) (apex : DomainName) (zsk ksk : StoredKey) :
    DnssecError → Prop where
  | foreign {key : StoredKey} (one : key = zsk ∨ key = ksk)
      (other : key.published.owner.same apex = false) :
      Unusable zone apex zsk ksk (.malformed zone (.foreignOwner key.published.owner))
  | mismatched {key : StoredKey} {cause : DnssecError} (one : key = zsk ∨ key = ksk)
      (bad : SigningKey.ofParts key.published key.secret = .error cause) :
      Unusable zone apex zsk ksk cause
  | unsigned {signer : ZoneKey} {rdatas : List Bytes} {cause : DnssecError}
      (pair : signer.signer.Pairs signer.dnskey ksk.secret)
      (bad : signer.signSet apex.lower .dnskey ksk.published.ttl rdatas = .error cause) :
      Unusable zone apex zsk ksk cause

private theorem checkOwner_eq_error {key : StoredKey}
    (h : key.checkOwner zone apex = .error cause) : key.published.owner.same apex = false ∧
      cause = .malformed zone (.foreignOwner key.published.owner) := by
  rw [StoredKey.checkOwner] at h
  split at h
  · cases h
  · rename_i other
    exact ⟨by simpa using other, (Except.error.inj h).symm⟩

theorem ofStored_eq_error (h : ofStored zone apex.lower now zsk ksk = .error cause) :
    Unusable zone apex zsk ksk cause := by
  rcases Except.bind_eq_error.1 h with bad | ⟨_, -, h⟩
  · obtain ⟨other, rfl⟩ := checkOwner_eq_error bad
    exact .foreign (.inl rfl) (by simpa using other)
  rcases Except.bind_eq_error.1 h with bad | ⟨_, -, h⟩
  · obtain ⟨other, rfl⟩ := checkOwner_eq_error bad
    exact .foreign (.inr rfl) (by simpa using other)
  rcases Except.bind_eq_error.1 h with bad | ⟨zskSigner, -, h⟩
  · exact .mismatched (.inl rfl) bad
  rcases Except.bind_eq_error.1 h with bad | ⟨kskSigner, kskParts, h⟩
  · exact .mismatched (.inr rfl) bad
  rcases Except.bind_eq_error.1 h with bad | ⟨rrsig, -, h⟩
  · exact .unsigned (SigningKey.ofParts_eq_ok.1 kskParts) bad
  · cases h

/-- What is wrong with the keys of a zone as the store has them. -/
inductive Faulty (h : List Event) (keys : StoreKeys) (zone : String) : DnssecError → Prop where
  | unnamed {cause : NameError} (bad : DomainName.parse zone.toList = .error cause) :
      Faulty h keys zone (.proto (.name cause))
  | unreadable {role : KeyRole} {cause : DnssecError}
      (bad : StoredKey.Unreadable h keys zone role cause) : Faulty h keys zone cause
  | unusable {apex : DomainName} {zsk ksk : StoredKey} {cause : DnssecError}
      (named : DomainName.parse zone.toList = .ok apex) (readZsk : zsk.Read h keys zone .zsk)
      (readKsk : ksk.Read h keys zone .ksk) (bad : Unusable zone apex zsk ksk cause) :
      Faulty h keys zone cause

theorem Faulty.mono {h' : List Event} (bad : Faulty h keys zone cause) (sub : h ⊆ h') :
    Faulty h' keys zone cause := by
  cases bad with
  | unnamed bad => exact .unnamed bad
  | unreadable bad => exact .unreadable (bad.mono sub)
  | unusable named readZsk readKsk bad =>
    exact .unusable named (readZsk.mono sub) (readKsk.mono sub) bad

/-- The keys of a zone are made of what both roles' halves say. -/
def Loaded (h : List Event) (keys : StoreKeys) (zone : String) (now : Seconds)
    (s : ZoneSigning) : Prop :=
  ∃ apex zsk ksk, DomainName.parse zone.toList = .ok apex ∧ StoredKey.Read zsk h keys zone .zsk ∧
    StoredKey.Read ksk h keys zone .ksk ∧ s.Consistent apex now zsk ksk

theorem load_meets (keys : StoreKeys) (zone : String) (now : Seconds) :
    Meets .store (AsksKey keys zone) (load keys zone now) (fun h s => s.Loaded h keys zone now)
      (fun h cause => Faulty h keys zone cause) := by
  refine ((Meets.ofExcept _).bind fun apex => (StoredKey.load_meets keys zone .zsk).bind fun zsk =>
    (StoredKey.load_meets keys zone .ksk).bind fun ksk => .ofExcept _).mono ?_ ?_
  · rintro _ s ⟨_, _, apex, rfl, ⟨rfl, named⟩, h₁, _, zsk, rfl, readZsk, h₂, _, ksk, rfl, readKsk,
      rfl, made⟩
    have named := Except.mapError_eq_ok.1 named
    exact ⟨apex, zsk, ksk, named, readZsk.mono (by simp), readKsk.mono (by simp),
      ofStored_eq_ok made⟩
  · rintro _ cause (⟨rfl, bad⟩ | ⟨_, h, apex, rfl, ⟨rfl, named⟩, rest⟩)
    · obtain ⟨fault, unnamed, rfl⟩ := Except.mapError_eq_error.1 bad
      exact .unnamed unnamed
    have named := Except.mapError_eq_ok.1 named
    rcases rest with bad | ⟨h₁, _, zsk, rfl, readZsk, bad | ⟨h₂, _, ksk, rfl, readKsk, rfl, bad⟩⟩
    · exact .unreadable (bad.mono (by simp))
    · exact .unreadable (bad.mono (by simp))
    · exact .unusable named (readZsk.mono (by simp)) (readKsk.mono (by simp))
        (ofStored_eq_error bad)

end ZoneSigning
end ZoneCatalog
