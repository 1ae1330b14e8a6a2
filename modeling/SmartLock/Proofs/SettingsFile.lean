/-
# Settings that are saved and loaded again

Settings are read back from the text of their file, as long as the file can hold their numbers
(`Settings.survives_saving`), whatever their texts are and whichever of their parts are absent.

The text is read line by line (`Settings.readLines_toText`), the lines fill the table of the
document (`Settings.ofLines?_lines`), and the table is read as the settings
(`Settings.ofEntries?_entries`).  What a table is written for is a list of fields, some of them
absent; `present` is the table.
-/
import Mathlib.Algebra.Group.Nat.Defs
import SmartLock.Proofs.Discovery.Identifiers
import SmartLock.Proofs.Toml.Lines
import SmartLock.Proofs.Toml.Tables
import SmartLock.Settings.File

namespace SmartLock

open Toml

/-! ## Fields that may be absent -/

namespace Settings

/-- The entries of the fields that are present. -/
def present (fields : List (String × Option Value)) : Entries :=
  fields.filterMap fun field => field.2.map (Prod.mk field.1)

/-- The names of the entries are names of fields. -/
theorem names_present_sublist (fields : List (String × Option Value)) :
    ((present fields).map Prod.fst).Sublist (fields.map Prod.fst) := by
  induction fields with
  | nil => exact List.Sublist.refl _
  | cons field fields ih =>
      obtain ⟨name, v⟩ := field
      cases v with
      | none => exact ih.cons name
      | some v => exact ih.cons_cons name

/-- A field is found if it is present. -/
theorem get?_present {fields : List (String × Option Value)}
    (hnodup : (fields.map Prod.fst).Nodup) {name : String} {v : Option Value}
    (hmem : (name, v) ∈ fields) : (present fields).get? name = v := by
  induction fields with
  | nil => exact absurd hmem List.not_mem_nil
  | cons field fields ih =>
      obtain ⟨other, w⟩ := field
      obtain ⟨hnot, hnodup⟩ := List.nodup_cons.mp hnodup
      rcases List.mem_cons.mp hmem with heq | hlater
      · obtain ⟨rfl, rfl⟩ := Prod.mk.inj heq
        have hlacks : (present fields).Lacks name := by
          rintro entry hentry rfl
          exact hnot ((names_present_sublist fields).subset (List.mem_map_of_mem hentry))
        cases v with
        | none => exact hlacks.get?_eq
        | some v => exact List.lookup_cons_self
      · have hne : (name == other) = false := by
          rw [beq_eq_false_iff_ne]
          rintro rfl
          exact hnot (List.mem_map.mpr ⟨_, hlater, rfl⟩)
        rw [← ih hnodup hlater]
        cases w with
        | none => rfl
        | some w =>
            show List.lookup name ((other, w) :: present fields) = (present fields).get? name
            rw [List.lookup_cons, hne]
            rfl

end Settings

open Settings (present names_present_sublist)

namespace DeviceProfile

/-- The fields of a device. -/
def fields (device : DeviceProfile) : List (String × Option Value) :=
  [("name", some (.string device.name)),
    ("model", some (.string device.model.name)),
    ("uuid", device.uuid.map fun u => .string u.toText),
    ("secret", some (.string device.secret)),
    ("public_key", device.publicKey.map .string)]

/-- The table of a device. -/
def entries (device : DeviceProfile) : Entries := present device.fields

/-- No two fields have the same name. -/
theorem nodup_fields (device : DeviceProfile) : (device.fields.map Prod.fst).Nodup := by
  show ["name", "model", "uuid", "secret", "public_key"].Nodup
  decide

end DeviceProfile

namespace ServerSettings

/-- The fields of a server. -/
def fields (server : ServerSettings) : List (String × Option Value) :=
  [("model", some (.string server.model.name)),
    ("uuid", server.uuid.map fun u => .string u.toText),
    ("max_sessions", some (.integer server.maxSessions.toNat)),
    ("auth_timeout_ms", some (.integer server.loginTimeout.toNat)),
    ("private_key", server.privateKey.map .string),
    ("secret", server.secret.map .string)]

/-- The table of a server. -/
def entries (server : ServerSettings) : Entries := present server.fields

/-- No two fields have the same name. -/
theorem nodup_fields (server : ServerSettings) : (server.fields.map Prod.fst).Nodup := by
  show ["model", "uuid", "max_sessions", "auth_timeout_ms", "private_key", "secret"].Nodup
  decide

end ServerSettings

namespace Settings

/-- The list of the devices; without any it is written out. -/
def devicesValue (devices : List DeviceProfile) : Value :=
  if devices.isEmpty then .array [] else .tables (devices.map DeviceProfile.entries)

/-- The table of the settings. -/
def entries (settings : Settings) : Entries :=
  [("log_level", .string settings.logLevel), ("devices", devicesValue settings.devices),
    ("server", .table .header settings.server.entries)]

/-- The lines about the devices. -/
def deviceLines (devices : List DeviceProfile) : List Line :=
  if devices.isEmpty then assigns [("devices", .array [])]
  else elements "devices" (devices.map DeviceProfile.entries)

/-- The lines of the file. -/
def lines (settings : Settings) : List Line :=
  assigns [("log_level", .string settings.logLevel)] ++ deviceLines settings.devices ++
    .openTable (.plain "server") :: assigns settings.server.entries

end Settings

/-! ## From the text to the lines -/

namespace Settings

/-- The line of a text. -/
theorem reads_text (name : String) (hname : isPlainName name = true) (text : String) :
    Reads (Settings.Write.text name text) (assigns (present [(name, some (.string text))])) :=
  Reads.assign hname (beginsLine_write text) fun rest => readValue_write maxDepth text rest

/-- The line of a text that may be absent. -/
theorem reads_optional (name : String) (hname : isPlainName name = true)
    (text : Option String) :
    Reads (Settings.Write.optional name text) (assigns (present [(name, text.map .string)])) := by
  cases text with
  | none => exact Reads.nil
  | some text => exact reads_text name hname text

/-- The line of a number that fits. -/
theorem reads_natural (name : String) (hname : isPlainName name = true) {n : Nat}
    (hn : n < 0x8000000000000000) :
    Reads (Settings.Write.natural name n) (assigns (present [(name, some (.integer n))])) :=
  Reads.assign hname (beginsLine_toDigits n) (readValue_toDigits maxDepth hn)

/-- The line of an identifier that may be absent. -/
theorem reads_uuid (u : Option Uuid) :
    Reads (Settings.Write.optional "uuid" (u.map Uuid.toText))
      (assigns (present [("uuid", u.map fun u => .string u.toText)])) := by
  have hread := reads_optional "uuid" (by decide) (u.map Uuid.toText)
  rwa [Option.map_map] at hread

/-- The lines of more fields. -/
theorem reads_fields {block more : List Char} {lines : List Line}
    {fields later : List (String × Option Value)}
    (h : Reads block (lines ++ assigns (present fields)))
    (hmore : Reads more (assigns (present later))) :
    Reads (block ++ more) (lines ++ assigns (present (fields ++ later))) := by
  have hassigns : assigns (present (fields ++ later)) =
      assigns (present fields) ++ assigns (present later) := by
    rw [present, List.filterMap_append, assigns, List.map_append]
    rfl
  rw [hassigns, ← List.append_assoc]
  exact h.append hmore

end Settings

open Settings (reads_text reads_optional reads_natural reads_uuid reads_fields)

/-- The part of a file about a device. -/
theorem DeviceProfile.reads_write (device : DeviceProfile) :
    Reads (Settings.Write.device device)
      (.openElement (.plain "devices") :: assigns device.entries) := by
  have hopen := Reads.openElement (show isPlainName "devices" = true by decide)
  have hheader : Reads (Settings.Write.header "[[devices]]")
      ([.openElement (.plain "devices")] ++ assigns (present [])) := hopen
  have hname := reads_fields hheader (reads_text "name" (by decide) device.name)
  have hmodel := reads_fields hname (reads_text "model" (by decide) device.model.name)
  have huuid := reads_fields hmodel (reads_uuid device.uuid)
  have hsecret := reads_fields huuid (reads_text "secret" (by decide) device.secret)
  exact reads_fields hsecret (reads_optional "public_key" (by decide) device.publicKey)

/-- The part of a file about a server. -/
theorem ServerSettings.reads_write {server : ServerSettings}
    (hfits : server.maxSessions < 0x8000000000000000) :
    Reads (Settings.Write.server server)
      (.openTable (.plain "server") :: assigns server.entries) := by
  have htime := server.loginTimeout.toNat_lt
  have hopen := Reads.openTable (show isPlainName "server" = true by decide)
  have hheader : Reads (Settings.Write.header "[server]")
      ([.openTable (.plain "server")] ++ assigns (present [])) := hopen
  have hmodel := reads_fields hheader (reads_text "model" (by decide) server.model.name)
  have huuid := reads_fields hmodel (reads_uuid server.uuid)
  have hsessions := reads_fields huuid (reads_natural "max_sessions" (by decide)
    (UInt64.lt_iff_toNat_lt.mp hfits))
  have htimeout := reads_fields hsessions (reads_natural "auth_timeout_ms" (by decide)
    (show server.loginTimeout.toNat < _ by omega))
  have hkey := reads_fields htimeout (reads_optional "private_key" (by decide) server.privateKey)
  exact reads_fields hkey (reads_optional "secret" (by decide) server.secret)

namespace Settings

/-- The part of a file about all devices. -/
theorem reads_devices (devices : List DeviceProfile) :
    Reads (Write.devices devices) (deviceLines devices) := by
  rw [Write.devices, deviceLines]
  split
  · exact Reads.assign (by decide) (by decide) fun rest => readValue_empty ('\n' :: rest)
  · rw [elements, List.flatMap_map]
    exact Reads.flatMap devices fun device _ => device.reads_write

/-- The file is read as the lines of the settings. -/
theorem readLines_toText {settings : Settings}
    (hfits : settings.server.maxSessions < 0x8000000000000000) :
    readLines settings.toText = some settings.lines := by
  apply readLines_of_reads
  · rw [toText, String.toList_ofList]
    exact ((reads_text "log_level" (by decide) settings.logLevel).append
      (reads_devices settings.devices)).append (ServerSettings.reads_write hfits)
  · rw [toText, String.toList_ofList]
    intro h
    have hfirst : some 'l' = some '\uFEFF' := h
    exact absurd hfirst (by decide)

/-! ## From the lines to the table -/

/-- Devices listed in the table of a document. -/
theorem foldlM_deviceLines {before : Entries} (h : before.Lacks "devices")
    (devices : List DeviceProfile) :
    ∃ path, (deviceLines devices).foldlM Draft.add ⟨before, []⟩ =
      some ⟨before ++ [("devices", devicesValue devices)], path⟩ := by
  rw [deviceLines, devicesValue]
  split
  · refine ⟨[], foldlM_assigns Entries.opens_nil _ ?_ (by decide)⟩
    intro entry hentry
    rw [List.mem_singleton.mp hentry]
    exact h
  · rename_i hsome
    have hnodup : ∀ entries ∈ devices.map DeviceProfile.entries,
        (entries.map Prod.fst).Nodup := by
      intro entries hentries
      obtain ⟨device, -, rfl⟩ := List.mem_map.mp hentries
      exact device.nodup_fields.sublist (names_present_sublist device.fields)
    obtain ⟨path, hpath⟩ := foldlM_elements h _ hnodup [] []
    refine ⟨path, hpath.trans ?_⟩
    rw [List.nil_append, withElements, if_neg (by simpa using hsome)]

/-- The lines of the settings fill the table of the settings. -/
theorem ofLines?_lines (settings : Settings) :
    Entries.ofLines? settings.lines = some settings.entries := by
  have hlevel : (assigns [("log_level", .string settings.logLevel)]).foldlM Draft.add {} =
      some ⟨[("log_level", .string settings.logLevel)], []⟩ :=
    foldlM_assigns Entries.opens_nil _ (fun _ _ _ hmem => absurd hmem List.not_mem_nil) (by simp)
  have hlacks : Entries.Lacks [("log_level", .string settings.logLevel)] "devices" := by
    simp [Entries.Lacks]
  obtain ⟨path, hdevices⟩ := foldlM_deviceLines hlacks settings.devices
  have hserver : Entries.Lacks ([("log_level", .string settings.logLevel)] ++
      [("devices", devicesValue settings.devices)]) "server" := by
    simp [Entries.Lacks]
  have hfill := foldlM_assigns (Entries.opens_table hserver) settings.server.entries
    (fun _ _ _ hmem => absurd hmem List.not_mem_nil)
    (settings.server.nodup_fields.sublist (names_present_sublist settings.server.fields))
  rw [Entries.ofLines?, lines, List.foldlM_append, List.foldlM_append, hlevel,
    Option.bind_eq_bind, Option.bind_some, hdevices, Option.bind_some, List.foldlM_cons,
    add_openTable hserver, Option.bind_eq_bind, Option.bind_some, hfill]
  rfl

/-! ## From the table to the settings -/

open Settings.Read

section Fields

variable {fields : List (String × Option Value)} {α : Type}

/-- A field that must be there is read. -/
theorem required_present (hnodup : (fields.map Prod.fst).Nodup) {name : String} {v : Value}
    (hmem : (name, some v) ∈ fields) {read : Value → Option α} {x : α} (hread : read v = some x) :
    required (present fields) name read = some x := by
  rw [required, get?_present hnodup hmem, Option.bind_some, hread]

/-- A field that may be missing is read. -/
theorem optional_present (hnodup : (fields.map Prod.fst).Nodup) {name : String} {x : Option α}
    {write : α → Value} (hmem : (name, x.map write) ∈ fields) {read : Value → Option α}
    (hread : ∀ x, read (write x) = some x) :
    Settings.Read.optional (present fields) name read = some x := by
  rw [Settings.Read.optional, get?_present hnodup hmem]
  cases x with
  | none => rfl
  | some x =>
      show (read (write x)).map some = _
      rw [hread, Option.map_some]

/-- A field that has a default is read. -/
theorem withDefault_present (hnodup : (fields.map Prod.fst).Nodup) {name : String} {v : Value}
    (hmem : (name, some v) ∈ fields) {read : Value → Option α} {x : α} (hread : read v = some x)
    (default : α) : withDefault (present fields) name read default = some x := by
  rw [withDefault, Settings.Read.optional, get?_present hnodup hmem]
  dsimp only
  rw [hread]
  rfl

end Fields

/-- A text is read. -/
theorem text?_string (text : String) : text? (.string text) = some text := rfl

/-- A model is read by its name. -/
theorem model?_name (model : Model) : model? (.string model.name) = some model :=
  model.ofName?_name

/-- An identifier is read. -/
theorem uuid?_toText (u : Uuid) : uuid? (.string u.toText) = some u := u.ofText?_toText

/-- A number below the bound is read. -/
theorem natural?_natCast {bound n : Nat} (h : n < bound) :
    natural? bound (.integer n) = some n := by
  rw [natural?, if_pos]
  · rfl
  · simpa using h

end Settings

open Settings Settings.Read

/-- The table of a device is read as the device. -/
theorem DeviceProfile.ofValue?_entries (device : DeviceProfile) :
    ofValue? (.table .header device.entries) = some device := by
  have hname : required device.entries "name" text? = some device.name :=
    required_present device.nodup_fields (by simp [fields]) (text?_string _)
  have hmodel : required device.entries "model" model? = some device.model :=
    required_present device.nodup_fields (by simp [fields]) (model?_name _)
  have huuid : Settings.Read.optional device.entries "uuid" uuid? = some device.uuid :=
    optional_present device.nodup_fields (by simp [fields]) uuid?_toText
  have hsecret : required device.entries "secret" text? = some device.secret :=
    required_present device.nodup_fields (by simp [fields]) (text?_string _)
  have hkey : Settings.Read.optional device.entries "public_key" text? = some device.publicKey :=
    optional_present device.nodup_fields (by simp [fields]) text?_string
  simp only [ofValue?, fields?, Option.bind_eq_bind, Option.bind_some, hname, hmodel, huuid,
    hsecret, hkey]
  rfl

/-- The table of a server is read as the server. -/
theorem ServerSettings.ofValue?_entries {server : ServerSettings}
    (hfits : server.maxSessions < 0x8000000000000000) :
    ofValue? (.table .header server.entries) = some server := by
  have hbound : server.maxSessions.toNat < 0x8000000000000000 := UInt64.lt_iff_toNat_lt.mp hfits
  have htime := server.loginTimeout.toNat_lt
  have hword64 : word64? (.integer server.maxSessions.toNat) = some server.maxSessions := by
    rw [word64?, natural?_natCast hbound, Option.map_some, UInt64.ofNat_toNat]
  have hword32 : word32? (.integer server.loginTimeout.toNat) = some server.loginTimeout := by
    rw [word32?, natural?_natCast (by omega), Option.map_some, UInt32.ofNat_toNat]
  have hmodel (plain : Model) :
      withDefault server.entries "model" model? plain = some server.model :=
    withDefault_present server.nodup_fields (by simp [fields]) (model?_name _) plain
  have huuid : Settings.Read.optional server.entries "uuid" uuid? = some server.uuid :=
    optional_present server.nodup_fields (by simp [fields]) uuid?_toText
  have hsessions (plain : UInt64) :
      withDefault server.entries "max_sessions" word64? plain = some server.maxSessions :=
    withDefault_present server.nodup_fields (by simp [fields]) hword64 plain
  have htimeout (plain : UInt32) :
      withDefault server.entries "auth_timeout_ms" word32? plain = some server.loginTimeout :=
    withDefault_present server.nodup_fields (by simp [fields]) hword32 plain
  have hkey : Settings.Read.optional server.entries "private_key" text? = some server.privateKey :=
    optional_present server.nodup_fields (by simp [fields]) text?_string
  have hsecret : Settings.Read.optional server.entries "secret" text? = some server.secret :=
    optional_present server.nodup_fields (by simp [fields]) text?_string
  simp only [ofValue?, fields?, Option.bind_eq_bind, Option.bind_some, hmodel, huuid, hsessions,
    htimeout, hkey, hsecret]
  rfl

namespace Settings

/-- The devices of a list are read. -/
theorem devices?_devicesValue (devices : List DeviceProfile) :
    devices? (devicesValue devices) = some devices := by
  have hall (devices : List DeviceProfile) :
      ((devices.map DeviceProfile.entries).map (Value.table .header)).mapM
        DeviceProfile.ofValue? = some devices := by
    induction devices with
    | nil => rfl
    | cons device devices ih =>
        rw [List.map_cons, List.map_cons, List.mapM_cons, device.ofValue?_entries]
        simp only [Option.bind_eq_bind, Option.bind_some, ih]
        rfl
  rw [devicesValue]
  split
  · rename_i hempty
    rw [List.isEmpty_iff.mp hempty]
    rfl
  · exact hall devices

/-- The table of the settings is read as the settings. -/
theorem ofEntries?_entries {settings : Settings}
    (hfits : settings.server.maxSessions < 0x8000000000000000) :
    ofEntries? settings.entries = some settings := by
  have hlevel (plain : String) :
      withDefault settings.entries "log_level" text? plain = some settings.logLevel := rfl
  have hdevices (plain : List DeviceProfile) :
      withDefault settings.entries "devices" devices? plain = some settings.devices := by
    show ((devices? (devicesValue settings.devices)).map some).map (·.getD plain) = _
    rw [devices?_devicesValue]
    rfl
  have hserver (plain : ServerSettings) :
      withDefault settings.entries "server" ServerSettings.ofValue? plain =
        some settings.server := by
    show ((ServerSettings.ofValue? (.table .header settings.server.entries)).map some).map
      (·.getD plain) = _
    rw [ServerSettings.ofValue?_entries hfits]
    rfl
  simp only [ofEntries?, Option.bind_eq_bind, Option.bind_some, hlevel, hdevices, hserver]
  rfl

/-! ## There and back -/

/-- **Settings survive.**  Settings whose number of sessions a file can hold are written, and they
are read back from the text. -/
theorem survives_saving (settings : Settings)
    (hfits : settings.server.maxSessions.toNat ≤ 2 ^ 63 - 1) :
    ∃ text, settings.toText? = some text ∧ ofText? text = some settings := by
  have hlt : settings.server.maxSessions < 0x8000000000000000 := by
    rw [UInt64.lt_iff_toNat_lt]
    exact Nat.lt_of_le_of_lt hfits (by decide)
  refine ⟨settings.toText, ?_, ?_⟩
  · rw [toText?, fits, if_pos (decide_eq_true hlt)]
  · rw [ofText?, parse?, readLines_toText hlt]
    simp only [Option.bind_eq_bind, Option.bind_some, ofLines?_lines, ofEntries?_entries hlt]

/-- Settings with texts that take each style of quotes, with a device that has everything and one
that lacks what it can, and with the greatest number of sessions. -/
def awkward : Settings where
  logLevel := ""
  devices := [
    { name := "front \"door\"", model := .sesame5Pro, uuid := some Uuid.nil,
      secret := "C:\\keys", publicKey := some "it's\n\"both\"\n" },
    { name := "\x00'''\"\"\"\t", model := .sesameBot2,
      secret := "\n鍵\n[server]\nmodel = 'hub3'\n" }]
  server := { maxSessions := 0x7FFFFFFFFFFFFFFF, loginTimeout := 0, secret := some "" }

/-- They survive. -/
theorem survives_saving_awkward :
    awkward.server.maxSessions.toNat ≤ 2 ^ 63 - 1 ∧
      ∃ text, awkward.toText? = some text ∧ ofText? text = some awkward :=
  ⟨by decide, survives_saving awkward (by decide)⟩

end Settings

end SmartLock
