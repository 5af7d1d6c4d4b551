import ZoneCatalog.Record.Json
import ZoneCatalog.Proofs.Data.Except
import ZoneCatalog.Proofs.Json.Tokens
import ZoneCatalog.Proofs.Net.Text

/-! Record sets are read back off the JSON they are stored as. -/
namespace ZoneCatalog

open Datum

@[simp]
theorem IpAddress.decode_display (ip : IpAddress) : decode (.str ip.display) = .ok ip := by
  have read : ofText ip.display.toList = some ip := by
    rw [display, String.toList_ofList, ofText_text]
  simp only [decode, decodeText_str, Except.ok_bind, read]
  rfl

/-! The policies. -/

theorem FilterCount.faithful : Faithful encode decode where
  plain count := by cases count <;> exact .str _
  decode_encode count := by cases count <;> rfl

theorem FilterOrder.faithful : Faithful encode decode where
  plain order := by cases order <;> exact .str _
  decode_encode order := by cases order <;> rfl

theorem GeoFilter.faithful : Faithful encode decode where
  plain filter := by cases filter <;> exact .str _
  decode_encode filter := by cases filter <;> rfl

theorem IpFilter.faithful : Faithful encode decode :=
  .record (by simp) (by simp)
    (by simp [FilterCount.faithful.plain, FilterOrder.faithful.plain, GeoFilter.faithful.plain])
    (by simp [FilterCount.faithful.decode_encode, FilterOrder.faithful.decode_encode,
      GeoFilter.faithful.decode_encode])

theorem IpHealthCheck.faithful : Faithful encode decode :=
  .record (by simp) (by simp) (by simp) (by simp)

/-! The sets and their records. -/

theorem IpRecord.faithful : Faithful encode decode :=
  .record (by simp) (by simp) (by simp) (by simp [decodeList_map decodeText_str])

theorem IpSet.faithful : Faithful encode decode :=
  .record (by simp) (by simp)
    (by simp [IpRecord.faithful.plain, IpFilter.faithful.plain, IpHealthCheck.faithful.plain])
    (by simp [IpRecord.faithful.decode_encode, IpFilter.faithful.decode_encode,
      IpHealthCheck.faithful.decode_encode])

theorem RrSet.faithful {α : Type} {encode : α → Datum} {decode : Datum → Decoded α}
    (record : Faithful encode decode) : Faithful (RrSet.encode encode) (RrSet.decode decode) :=
  .record (by simp) (by simp) (by simp [record.plain]) (by simp [record.decode_encode])

theorem Cname.faithful : Faithful encode decode :=
  .record (by simp) (by simp) (by simp) (by simp)

theorem Txt.faithful : Faithful encode decode :=
  .record (by simp) (by simp) (by simp) (by simp)

theorem Ns.faithful : Faithful encode decode :=
  .record (by simp) (by simp) (by simp) (by simp)

theorem Mx.faithful : Faithful encode decode :=
  .record (by simp) (by simp) (by simp) (by simp)

theorem Srv.faithful : Faithful encode decode :=
  .record (by simp) (by simp) (by simp) (by simp)

theorem Caa.faithful : Faithful encode decode :=
  .record (by simp) (by simp) (by simp) (by simp)

theorem Ptr.faithful : Faithful encode decode :=
  .record (by simp) (by simp) (by simp) (by simp)

theorem Tlsa.faithful : Faithful encode decode :=
  .record (by simp) (by simp) (by simp) (by simp)

theorem Aname.faithful : Faithful encode decode :=
  .record (by simp) (by simp) (by simp) (by simp)

/-! All sets of a location. -/

section Present

variable {α : Type} {encode : α → Datum} {decode : Datum → Decoded α} {name other : String}
  {stated : List (String × Datum)}

@[simp]
theorem presentMember_none : presentMember name encode none = [] := rfl

@[simp]
theorem presentMember_some (x : α) : presentMember name encode (some x) = [(name, encode x)] := rfl

theorem map_fst_presentMember_sublist (x : Option α) :
    ((presentMember name encode x).map Prod.fst).Sublist [name] := by
  cases x with
  | none => exact List.nil_sublist _
  | some x => exact List.Sublist.refl _

theorem plain_presentMember (faithful : Faithful encode decode) (x : Option α) :
    ∀ m ∈ presentMember name encode x, m.2.Plain := by
  intro m hm
  cases x with
  | none => cases hm
  | some x =>
    obtain rfl := List.mem_singleton.1 hm
    exact faithful.plain x

@[simp]
theorem getD_presentMember_ne {β : Type} {decode : Datum → Decoded β} {default : β} (x : Option α)
    (h : name ≠ other) : (⟨false, presentMember other encode x ++ stated⟩ : Fields).getD name
      decode default = (⟨false, stated⟩ : Fields).getD name decode default := by
  cases x with
  | none => rfl
  | some x => simp [h]

/-- A record that may be absent is read off its member or off the lack of it. -/
theorem getD_presentMember (faithful : Faithful encode decode) (notNull : ∀ x, encode x ≠ .null)
    (x : Option α) (absent : (⟨false, stated⟩ : Fields).getD name (decodeOption decode) none =
      .ok none) :
    (⟨false, presentMember name encode x ++ stated⟩ : Fields).getD name (decodeOption decode) none =
      .ok x := by
  cases x with
  | none => exact absent
  | some x => simp [faithful.decodeOption (notNull x)]

end Present

theorem RecordSets.faithful : Faithful encode decode := by
  have cnameNotNull : ∀ r, Cname.encode r ≠ .null := by simp [Cname.encode, object]
  have ptrNotNull : ∀ r, Ptr.encode r ≠ .null := by simp [Ptr.encode, object]
  have anameNotNull : ∀ r, Aname.encode r ≠ .null := by simp [Aname.encode, object]
  refine .record (by simp) (fun s => ?ordered) (fun s => ?plain) (fun s => ?read)
  case ordered =>
    simp only [List.map_append]
    exact (((((List.Sublist.refl _).append (map_fst_presentMember_sublist s.cname)).append
      (.refl _)).append (map_fst_presentMember_sublist s.ptr)).append (.refl _)).append
        (map_fst_presentMember_sublist s.aname)
  case plain =>
    simp only [List.forall_mem_append]
    refine ⟨⟨⟨⟨⟨?_, plain_presentMember Cname.faithful _⟩, ?_⟩,
      plain_presentMember Ptr.faithful _⟩, ?_⟩, plain_presentMember Aname.faithful _⟩
    · simp [IpSet.faithful.plain]
    · simp [(RrSet.faithful Txt.faithful).plain, (RrSet.faithful Ns.faithful).plain,
        (RrSet.faithful Mx.faithful).plain, (RrSet.faithful Srv.faithful).plain,
        (RrSet.faithful Caa.faithful).plain]
    · simp [(RrSet.faithful Tlsa.faithful).plain]
  case read =>
    obtain ⟨a, aaaa, cname, txt, ns, mx, srv, caa, ptr, tlsa, aname⟩ := s
    have anameRead := fun r => Aname.faithful.decodeOption (anameNotNull r)
    cases aname <;>
      simp [IpSet.faithful.decode_encode, getD_presentMember Cname.faithful cnameNotNull,
        (RrSet.faithful Txt.faithful).decode_encode, (RrSet.faithful Ns.faithful).decode_encode,
        (RrSet.faithful Mx.faithful).decode_encode, (RrSet.faithful Srv.faithful).decode_encode,
        (RrSet.faithful Caa.faithful).decode_encode, getD_presentMember Ptr.faithful ptrNotNull,
        (RrSet.faithful Tlsa.faithful).decode_encode, anameRead]

theorem RecordSets.ofJson_toJson (s : RecordSets) : ofJson s.toJson = .ok s :=
  faithful.decode_writeString s

end ZoneCatalog
