/-
# Advertisements that are read back

What a device broadcasts names its model and its identifier, in the manufacturer data or in the name
(`Advertisement.readsBack`): it is read back, whatever follows the data.  Conversely a device of the
second generation is read from one name only, the one that is built for its identifier.  The gateway
is of this generation by its code, but its identifier is read from the data, and any name goes with
it (`Advertisement.not_forall_localName`).
-/
import SmartLock.Discovery.Advertisement
import SmartLock.Proofs.Text.Base64
import SmartLock.Proofs.Text.Utf8

namespace SmartLock

namespace Advertisement

/-! ## Names -/

/-- The bytes of the name for an identifier are its Base64 text. -/
theorem bytesOf_nameOf (uuid : Uuid) : Utf8.bytesOf (nameOf uuid) = Base64.encode uuid.toBytes := by
  rw [nameOf, Utf8.bytesOf, String.toList_ofList]
  apply Utf8.encode_map_ofNat
  intro x hx
  obtain ⟨n, hn, rfl⟩ := Base64.exists_symbol_of_mem_encode hx
  exact (Base64.symbol_toNat hn).2

/-- The name is as long as a name has to be. -/
theorem length_bytesOf_nameOf (uuid : Uuid) : (Utf8.bytesOf (nameOf uuid)).length = nameSize := by
  rw [bytesOf_nameOf, Base64.length_encode, uuid.length_toBytes]
  rfl

/-- An identifier is carried by one name only. -/
theorem uuidOfName_eq_ok_iff {name : String} {uuid : Uuid} :
    uuidOfName name = .ok uuid ↔ name = nameOf uuid := by
  constructor
  · intro h
    have hread : (Base64.decode? (Utf8.bytesOf name)).bind (Octets.ofBytes? 16) = some uuid := by
      unfold uuidOfName at h
      dsimp only at h
      split at h
      · rename_i bytes hbytes
        obtain ⟨-, hbytes⟩ := Option.ite_none_right_eq_some.mp hbytes
        rw [hbytes, Option.bind_some]
        split at h
        · rename_i uuid' huuid
          rw [huuid, Except.ok.inj h]
        · cases h
      · cases h
    apply Utf8.bytesOf_injective
    rw [Base64.octets_eq_some_iff.mp hread, bytesOf_nameOf]
  · rintro rfl
    have hdecode : Base64.decode? (Utf8.bytesOf (nameOf uuid)) = some uuid.toBytes := by
      rw [bytesOf_nameOf, Base64.decode?_encode]
    unfold uuidOfName
    dsimp only
    rw [if_pos (length_bytesOf_nameOf uuid), hdecode]
    dsimp only
    rw [Octets.ofBytes?_eq_some_iff.mpr rfl]

/-! ## Reading -/

/-- What is built begins with the company's number, and its identifier comes after five bytes. -/
theorem manufacturerData_build (model : Model) (registered : Bool) (uuid : Uuid) (rest : Bytes) :
    (build model registered uuid).manufacturerData ++ rest =
      0x5A :: 0x05 :: model.code :: 0 :: (if registered then 1 else 0) ::
        (uuid.toBytes ++ rest) := by
  simp [build, company]

/-- Data that begin with the company's number and the code of a model. -/
theorem parse_cons (model : Model) (zero flags : UInt8) (rest : Bytes) (name : String) :
    parse (0x5A :: 0x05 :: model.code :: zero :: flags :: rest) name =
      (uuidOf model (0x5A :: 0x05 :: model.code :: zero :: flags :: rest) name).map
        fun uuid => ⟨model, flags, uuid⟩ := by
  simp only [parse, company, ne_eq, not_true_eq_false, if_false, Model.ofCode?_code]

/-- What is read of an advertisement: the model and the flags that stand in the data, and the
identifier that the model takes from the data or from the name. -/
theorem parse_eq_ok_iff {data : Bytes} {name : String} {a : Advertisement} :
    parse data name = .ok a ↔
      (∃ zero rest, data = 0x5A :: 0x05 :: a.model.code :: zero :: a.flags :: rest) ∧
        uuidOf a.model data name = .ok a.uuid := by
  constructor
  · intro h
    unfold parse at h
    split at h
    · rename_i x y code zero flags rest
      split at h
      · cases h
      rename_i hcompany
      obtain ⟨rfl, rfl⟩ : x = 0x5A ∧ y = 0x05 := by simpa [company] using hcompany
      split at h
      · cases h
      rename_i model hmodel
      have hcode : model.code = code := by simpa using List.find?_some hmodel
      cases huuid : uuidOf model (0x5A :: 0x05 :: code :: zero :: flags :: rest) name with
      | error error => rw [huuid] at h; cases h
      | ok uuid =>
          rw [huuid] at h
          obtain rfl := Except.ok.inj h
          exact ⟨⟨zero, rest, by rw [hcode]⟩, huuid⟩
    · cases h
  · rintro ⟨⟨zero, rest, hdata⟩, huuid⟩
    rw [hdata] at huuid ⊢
    rw [parse_cons, huuid]
    rfl

/-! ## Models -/

/-- The models that are read by the generation of their code: all but the gateway and those of no
known generation. -/
def IsPlain (model : Model) : Prop :=
  model ≠ .wifi2 ∧ (model.osVersion = .os2 ∨ model.osVersion = .os3)

/-- The models whose identifier stands in their name. -/
def IsNamed (model : Model) : Prop := model ≠ .wifi2 ∧ model.osVersion = .os2

/-- The identifier of a model stands where it has been built in. -/
theorem uuidOf_built {model : Model} (h : IsPlain model) (uuid : Uuid) (head : Octets 5)
    (rest : Bytes) :
    uuidOf model (head.toBytes ++ (uuid.toBytes ++ rest)) (nameOf uuid) = .ok uuid := by
  obtain ⟨hgateway, hversion⟩ := h
  have htail : (head.toBytes ++ (uuid.toBytes ++ rest)).drop uuidOffset = uuid.toBytes ++ rest :=
    List.drop_left' head.length_toBytes
  rw [uuidOf, htail, if_neg hgateway]
  rcases hversion with hos2 | hos3
  · rw [hos2]
    exact uuidOfName_eq_ok_iff.mpr rfl
  · have hlength : ¬ (uuid.toBytes ++ rest).length < 16 := by
      rw [List.length_append, uuid.length_toBytes]
      omega
    rw [hos3]
    dsimp only
    rw [if_neg hlength, Octets.ofBytes_append]

/-- A model of the second generation takes its identifier from the name. -/
theorem uuidOf_of_isNamed {model : Model} (h : IsNamed model) (data : Bytes) (name : String) :
    uuidOf model data name = uuidOfName name := by
  obtain ⟨hgateway, hos2⟩ := h
  rw [uuidOf, if_neg hgateway, hos2]

/-- A device of the second generation is read from the name for its identifier only. -/
theorem name_of_parse {data : Bytes} {name : String} {a : Advertisement}
    (h : parse data name = .ok a) (hnamed : IsNamed a.model) : name = nameOf a.uuid := by
  obtain ⟨-, huuid⟩ := parse_eq_ok_iff.mp h
  rw [uuidOf_of_isNamed hnamed] at huuid
  exact uuidOfName_eq_ok_iff.mp huuid

/-! ## Both ways -/

/-- What is built is read, and what is read has been built. -/
structure ReadsBack : Prop where
  /-- What is built for a device is read as the device, whatever follows the data. -/
  built : ∀ model, IsPlain model → ∀ registered uuid rest,
    parse ((build model registered uuid).manufacturerData ++ rest)
      (build model registered uuid).localName =
      .ok ⟨model, if registered then 1 else 0, uuid⟩
  /-- A name from which a device is read is built for this device again. -/
  rebuilt : ∀ data name a, parse data name = .ok a → IsNamed a.model →
    ∀ model registered, (build model registered a.uuid).localName = name
  /-- Two names never stand for one device. -/
  distinct : ∀ data data' name name' a a', parse data name = .ok a → parse data' name' = .ok a' →
    IsNamed a.model → IsNamed a'.model → a.uuid = a'.uuid → name = name'
  /-- The name of a gateway plays no part. -/
  gateway : ∀ data name a, parse data name = .ok a → a.model = .wifi2 →
    ∀ name', parse data name' = .ok a

/-- **Advertisements are read back**, and names of the second generation are rebuilt. -/
theorem readsBack : ReadsBack := by
  constructor
  · intro model hplain registered uuid rest
    let head : Octets 5 := ⟨[0x5A, 0x05, model.code, 0, if registered then 1 else 0], rfl⟩
    rw [manufacturerData_build, parse_cons]
    show (uuidOf model (head.toBytes ++ (uuid.toBytes ++ rest)) (nameOf uuid)).map _ = _
    rw [uuidOf_built hplain]
    rfl
  · intro data name a h hnamed model registered
    exact (name_of_parse h hnamed).symm
  · intro data data' name name' a a' h h' hnamed hnamed' huuid
    rw [name_of_parse h hnamed, name_of_parse h' hnamed', huuid]
  · intro data name a h hgateway name'
    obtain ⟨hdata, huuid⟩ := parse_eq_ok_iff.mp h
    refine parse_eq_ok_iff.mpr ⟨hdata, ?_⟩
    rw [hgateway] at huuid ⊢
    exact huuid

/-- A bot of the second generation is read from the name that is built for it, with bytes after its
data, and the name is built again. -/
theorem readsBack_bot :
    let uuid : Uuid :=
      ⟨[26, 43, 60, 77, 94, 111, 112, 129, 146, 163, 180, 197, 214, 231, 248, 9], rfl⟩
    let a : Advertisement := ⟨.sesameBot, 1, uuid⟩
    IsPlain .sesameBot ∧ IsNamed .sesameBot ∧
      parse ([0x5A, 0x05, 2, 0, 1] ++ uuid.toBytes ++ [255]) "Gis8TV5vcIGSo7TF1uf4CQ" = .ok a ∧
      (build .sesame5 false uuid).localName = "Gis8TV5vcIGSo7TF1uf4CQ" := by
  intro uuid a
  have hplain : IsPlain .sesameBot := ⟨by decide, .inl (by decide)⟩
  have hnamed : IsNamed .sesameBot := ⟨by decide, by decide⟩
  have hname : nameOf uuid = "Gis8TV5vcIGSo7TF1uf4CQ" := by decide +kernel
  have hread := readsBack.built .sesameBot hplain true uuid [255]
  rw [show (build .sesameBot true uuid).localName = "Gis8TV5vcIGSo7TF1uf4CQ" from hname] at hread
  exact ⟨hplain, hnamed, hread, readsBack.rebuilt _ _ a hread hnamed .sesame5 false⟩

/-- Not every name that goes with a model of the second generation is the one that is built for the
identifier: the gateway takes any. -/
theorem not_forall_localName :
    ¬ ∀ data name a, parse data name = .ok a → a.model.osVersion = .os2 →
      (Utf8.bytesOf name).length = nameSize →
      ∀ model registered, (build model registered a.uuid).localName = name := by
  intro h
  let data : Bytes := [0x5A, 0x05, 1, 0, 0, 0xA1, 0xA2, 0xA3, 0xA4, 0xA5, 0xA6]
  let uuid : Uuid := Octets.ofBytes 16 (gatewayHead ++ data.drop 5)
  have hread : parse data "AAAAAAAAAAAAAAAAAAAAAA" = .ok ⟨.wifi2, 0, uuid⟩ := by decide +kernel
  have hname := h data _ _ hread (by decide) (by decide +kernel) .sesame5 false
  exact absurd hname (by decide +kernel)

end Advertisement

end SmartLock
