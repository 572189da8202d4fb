import Mathlib.Data.Set.List
import TagWire.Proofs.Generated.Json
import TagWire.Proofs.Sample.Calls
import TagWire.Proofs.Schema.Resolution
import TagWire.Sample.Directory
import TagWire.Sample.Schemas

/-
  The messages of a directory of contacts are read back from
  the JSON form in which the generated code writes them, with
  any library that follows JSON.

  Main declarations:
    * `Sample.contactsSchema`
    * `Sample.contactsProgram`
    * `Sample.readsBack_contacts`
    * `Sample.marshal_compact_contacts`
    * `Sample.Directory.register_directoryItem`
-/

------------------------------------------------------------
-- The Directory
------------------------------------------------------------

namespace TagWire

namespace Sample

open Generated

def Kind.declaration : EnumDecl where
  name := "Kind"
  variants := ["Personal", "Work"]
  position := ⟨3, 1⟩

def Contact.declaration : Message TypeRef where
  name := "Contact"
  fields :=
    [
      ⟨"name", 1, false, .scalar .string, ⟨9, 5⟩⟩,
      ⟨"kind", 2, true, .named (.enum "Kind"), ⟨10, 5⟩⟩,
      ⟨"phones", 3, true, .map .string (.scalar .string),
        ⟨11, 5⟩⟩,
      ⟨"address", 4, true, .named (.message "Address"),
        ⟨12, 5⟩⟩
    ]
  position := ⟨8, 1⟩

def Address.declaration : Message TypeRef where
  name := "Address"
  fields :=
    [
      ⟨"city", 1, false, .scalar .string, ⟨16, 5⟩⟩,
      ⟨"zip", 2, true, .scalar (.num (.int .uint32)), ⟨17, 5⟩⟩
    ]
  position := ⟨15, 1⟩

def Lookup.declaration : Message TypeRef where
  name := "Lookup"
  fields := [⟨"name", 1, false, .scalar .string, ⟨21, 5⟩⟩]
  position := ⟨20, 1⟩

/- The schema of the directory. -/
def contactsSchema : ResolvedSchema where
  enums := [Kind.declaration]
  messages :=
    [
      Contact.declaration, Address.declaration,
      Lookup.declaration
    ]
  services :=
    [
      {
        name := "Directory"
        methods := [⟨"Find", "Lookup", some "Contact", ⟨25, 5⟩⟩]
        position := ⟨24, 1⟩
      }
    ]

theorem compile_contactsText :
    compile contactsText = .ok contactsSchema := by
  apply Outcome.eq_ok_of_toOption
  unfold compile parseSource parseText tokenize contactsText
    textOfBlocks
  rw [toList_textOfLines]
  decide +kernel

/- What is generated for the messages of the directory. -/
def contactsProgram : Program :=
  .ofSchema .json contactsSchema

/- What is generated for the directory itself. -/
def directoryItem : ServiceItem :=
  {
    ident := "Directory"
    offered := [⟨"find", "Lookup", some "Contact"⟩]
    overBytes := ["find_handler"]
    adapted :=
      [
        ⟨"find_handler", .unmarshal "Lookup" (.var "req"),
          "find", some (.marshal (.borrow (.var "reply")))⟩
      ]
    registerIdent := "register_directory"
    registrations := [⟨"Find", "find_handler"⟩]
  }

theorem generates_contacts :
    Generates "contacts.dg" "contacts" contactsText .json
      contactsProgram [directoryItem] := by
  have hItem :
      contactsSchema.services.map serviceItem =
        [directoryItem] := by
    decide +kernel
  rw [← hItem]
  exact generates_ofSchema compile_contactsText _ _ _

end Sample

end TagWire

------------------------------------------------------------
-- Data
------------------------------------------------------------

namespace TagWire

namespace Sample

open Generated

/- The data that an address is. -/
def Address.datum
    (a : Address) :
    Datum :=
  .struct "Address"
    [
      ("city", .string a.city),
      ("zip", .number (.int .uint32) a.zip)
    ]

/- The data that a contact is. -/
def Contact.datum
    (c : Contact) :
    Datum :=
  .struct "Contact"
    [
      ("name", .string c.name),
      ("kind", .variant "Kind" c.kind.name),
      ("phones",
        .map
          (c.phones.entries.map fun e =>
            (.string e.1, .string e.2))),
      ("address", optionDatum Address.datum c.address)
    ]

/- The data that a lookup is. -/
def Lookup.datum
    (l : Lookup) :
    Datum :=
  .struct "Lookup" [("name", .string l.name)]

variable {p : Program}
variable {d : Datum}

theorem hasType_string_iff :
    p.HasType .string d ↔ ∃ text, d = .string text := by
  constructor
  · intro h
    cases h
    exact ⟨_, rfl⟩
  · intro h
    rcases h with ⟨text, rfl⟩
    exact .string

theorem hasType_number_iff
    {k : NumKind} :
    p.HasType (.number k) d ↔ ∃ word, d = .number k word := by
  constructor
  · intro h
    cases h
    exact ⟨_, rfl⟩
  · intro h
    rcases h with ⟨word, rfl⟩
    exact .number

/- Maps from strings to strings are the data of tables. -/
theorem hasType_phones_iff :
    p.HasType (.map .string .string) d ↔
      ∃ t : Table String String,
        d =
          .map
            (t.entries.map fun e =>
              (.string e.1, .string e.2)) := by
  constructor
  · intro h
    cases h with
    | @map _ _ entries hAscending hKeys hValues =>
        have hEntries :
            entries ∈ Set.range
              (List.map fun e : String × String =>
                (MapKey.string e.1, Datum.string e.2)) := by
          rw [Set.range_list_map]
          intro e he
          rcases e with ⟨key, value⟩
          have hKey := hKeys _ he
          have hValue := hValues _ he
          cases key with
          | int k word => cases hKey
          | string key =>
              cases hValue with
              | @string text => exact ⟨(key, text), rfl⟩
        rcases hEntries with ⟨pairs, rfl⟩
        exact
          ⟨⟨pairs, List.pairwise_map.mp hAscending⟩, rfl⟩
  · intro h
    rcases h with ⟨t, rfl⟩
    refine .map (List.pairwise_map.mpr t.ascending) ?_ ?_
    · exact List.forall_mem_map.mpr fun _ _ => .string
    · exact List.forall_mem_map.mpr fun _ _ => .string

theorem hasType_kind_iff :
    contactsProgram.HasType (.named "Kind") d ↔
      ∃ k : Kind, d = .variant "Kind" k.name := by
  constructor
  · intro h
    cases h with
    | variant hEnum hVariant =>
        cases hEnum
        rcases List.mem_cons.mp hVariant with rfl | hVariant
        · exact ⟨.personal, rfl⟩
        · obtain rfl := List.mem_singleton.mp hVariant
          exact ⟨.work, rfl⟩
    | struct hMessage _ => cases hMessage
  · intro h
    rcases h with ⟨k, rfl⟩
    cases k with
    | personal =>
        exact
          .variant (v := ⟨true, "Personal", 0⟩) rfl (by decide)
    | work =>
        exact .variant (v := ⟨false, "Work", 1⟩) rfl (by decide)

theorem hasType_address_iff :
    contactsProgram.HasType (.named "Address") d ↔
      ∃ a : Address, d = a.datum := by
  rw [hasType_jsonMessage_iff (m := Address.declaration) rfl rfl]
  constructor
  · intro h
    rcases h with ⟨get, hFields, rfl⟩
    rcases List.forall_mem_cons.mp hFields with ⟨hCity, hRest⟩
    rcases List.forall_mem_cons.mp hRest with ⟨hZip, _⟩
    rcases hasType_string_iff.mp hCity with ⟨city, hCity⟩
    rcases hasType_number_iff.mp hZip with ⟨zip, hZip⟩
    refine ⟨⟨city, zip⟩, ?_⟩
    show Datum.struct "Address"
      [("city", get (Names.fieldIdent "city")),
        ("zip", get (Names.fieldIdent "zip"))] = _
    rw [hCity, hZip]
    rfl
  · intro h
    rcases h with ⟨a, rfl⟩
    let get : String → Datum
      | "city" => .string a.city
      | _ => .number (.int .uint32) a.zip
    refine ⟨get, ?_, rfl⟩
    exact
      List.forall_mem_cons.mpr ⟨.string,
        List.forall_mem_cons.mpr ⟨.number, nofun⟩⟩

/- An address need not be there. -/
theorem hasType_optionAddress_iff :
    contactsProgram.HasType (.option (.boxed (.named "Address")))
        d ↔
      ∃ a? : Option Address,
        d = optionDatum Address.datum a? := by
  constructor
  · intro h
    cases h with
    | absent => exact ⟨none, rfl⟩
    | present h =>
        cases h with
        | boxed h =>
            rcases hasType_address_iff.mp h with ⟨a, rfl⟩
            exact ⟨some a, rfl⟩
  · intro h
    rcases h with ⟨_ | a, rfl⟩
    · exact .absent
    · exact .present (.boxed (hasType_address_iff.mpr ⟨a, rfl⟩))

theorem hasType_contact_iff :
    contactsProgram.HasType (.named "Contact") d ↔
      ∃ c : Contact, d = c.datum := by
  rw [hasType_jsonMessage_iff (m := Contact.declaration) rfl rfl]
  constructor
  · intro h
    rcases h with ⟨get, hFields, rfl⟩
    rcases List.forall_mem_cons.mp hFields with ⟨hName, hRest⟩
    rcases List.forall_mem_cons.mp hRest with ⟨hKind, hRest⟩
    rcases List.forall_mem_cons.mp hRest with ⟨hPhones, hRest⟩
    rcases List.forall_mem_cons.mp hRest with ⟨hAddress, _⟩
    rcases hasType_string_iff.mp hName with ⟨name, hName⟩
    rcases hasType_kind_iff.mp hKind with ⟨kind, hKind⟩
    rcases hasType_phones_iff.mp hPhones with ⟨phones, hPhones⟩
    rcases hasType_optionAddress_iff.mp hAddress with
      ⟨address, hAddress⟩
    refine ⟨⟨name, kind, phones, address⟩, ?_⟩
    show Datum.struct "Contact"
      [("name", get (Names.fieldIdent "name")),
        ("kind", get (Names.fieldIdent "kind")),
        ("phones", get (Names.fieldIdent "phones")),
        ("address", get (Names.fieldIdent "address"))] = _
    rw [hName, hKind, hPhones, hAddress]
    rfl
  · intro h
    rcases h with ⟨c, rfl⟩
    let get : String → Datum
      | "name" => .string c.name
      | "kind" => .variant "Kind" c.kind.name
      | "phones" =>
          .map
            (c.phones.entries.map fun e =>
              (.string e.1, .string e.2))
      | _ => optionDatum Address.datum c.address
    refine ⟨get, ?_, rfl⟩
    exact
      List.forall_mem_cons.mpr ⟨.string,
        List.forall_mem_cons.mpr
          ⟨hasType_kind_iff.mpr ⟨c.kind, rfl⟩,
        List.forall_mem_cons.mpr
          ⟨hasType_phones_iff.mpr ⟨c.phones, rfl⟩,
        List.forall_mem_cons.mpr
          ⟨hasType_optionAddress_iff.mpr ⟨c.address, rfl⟩,
            nofun⟩⟩⟩⟩

theorem hasType_lookup_iff :
    contactsProgram.HasType (.named "Lookup") d ↔
      ∃ l : Lookup, d = l.datum := by
  rw [hasType_jsonMessage_iff (m := Lookup.declaration) rfl rfl]
  constructor
  · intro h
    rcases h with ⟨get, hFields, rfl⟩
    rcases List.forall_mem_cons.mp hFields with ⟨hName, _⟩
    rcases hasType_string_iff.mp hName with ⟨name, hName⟩
    refine ⟨⟨name⟩, ?_⟩
    show Datum.struct "Lookup"
      [("name", get (Names.fieldIdent "name"))] = _
    rw [hName]
    rfl
  · intro h
    rcases h with ⟨l, rfl⟩
    exact
      ⟨fun _ => .string l.name,
        List.forall_mem_cons.mpr ⟨.string, nofun⟩, rfl⟩

end Sample

end TagWire

------------------------------------------------------------
-- Round Trip
------------------------------------------------------------

namespace TagWire

namespace Sample

open Generated

variable {depth : Nat}

theorem carried_kind :
    Carried contactsProgram depth (.named "Kind") :=
  .enum rfl rfl (isDerived_enumItem Kind.declaration)

theorem carried_address :
    Carried contactsProgram (depth + 1) (.named "Address") := by
  refine
    Carried.message (m := Address.declaration) rfl rfl
      (by decide) ?_
  exact
    List.forall_mem_cons.mpr ⟨.string,
      List.forall_mem_cons.mpr ⟨.natural rfl, nofun⟩⟩

theorem carried_lookup :
    Carried contactsProgram (depth + 1) (.named "Lookup") := by
  refine
    Carried.message (m := Lookup.declaration) rfl rfl
      (by decide) ?_
  exact List.forall_mem_cons.mpr ⟨.string, nofun⟩

theorem carried_contact :
    Carried contactsProgram (depth + 2) (.named "Contact") := by
  refine
    Carried.message (m := Contact.declaration) rfl rfl
      (by decide) ?_
  exact
    List.forall_mem_cons.mpr ⟨.string,
      List.forall_mem_cons.mpr ⟨carried_kind,
        List.forall_mem_cons.mpr ⟨.map .string,
          List.forall_mem_cons.mpr ⟨.option carried_address,
            nofun⟩⟩⟩⟩

/-
  The data of a generated type is that of structures of a type
  of their own, and each of them is read back.
-/
structure ReadsBack
    {α : Type}
    (lib : JsonLibrary)
    (p : Program)
    (ident : String)
    (put : α → Datum) : Prop where
  hasType_iff :
    ∀ d, p.HasType (.named ident) d ↔ ∃ x, d = put x
  unmarshal_marshal :
    ∀ x, ∃ data,
      p.marshal lib (put x) = some (.ok data) ∧
        p.unmarshal lib ident data = some (.ok (put x))

/-
  What is generated for the directory, with any library that
  follows JSON: every contact, every address and every lookup
  is written, and it is read back from what is written.
-/
theorem readsBack_contacts
    {lib : JsonLibrary}
    {serde : Serde}
    (hSerialize : serde.Serializes)
    (hDeserialize : serde.Deserializes)
    (hWrite : lib.Writes serde)
    (hRead : lib.Reads serde) :
    Generates "contacts.dg" "contacts" contactsText .json
      contactsProgram [directoryItem] ∧
    ReadsBack lib contactsProgram "Contact" Contact.datum ∧
    ReadsBack lib contactsProgram "Address" Address.datum ∧
    ReadsBack lib contactsProgram "Lookup" Lookup.datum := by
  have hBack
      {α : Type}
      {ident : String}
      {put : α → Datum}
      {m : Message TypeRef}
      (hMessage :
        contactsProgram.message? ident = some (jsonMessage m))
      (hType :
        Carried contactsProgram recursionLimit (.named ident))
      (hIff :
        ∀ d, contactsProgram.HasType (.named ident) d ↔
          ∃ x, d = put x) :
      ReadsBack lib contactsProgram ident put :=
    ⟨hIff, fun x =>
      hType.unmarshal_marshal hMessage hSerialize hDeserialize
        hWrite hRead ((hIff (put x)).mpr ⟨x, rfl⟩)⟩
  exact
    ⟨generates_contacts,
      hBack (m := Contact.declaration) rfl carried_contact
        fun _ => hasType_contact_iff,
      hBack (m := Address.declaration) rfl carried_address
        fun _ => hasType_address_iff,
      hBack (m := Lookup.declaration) rfl carried_lookup
        fun _ => hasType_lookup_iff⟩

/-
  A contact with quotes, backslashes, control characters and
  characters of two and four bytes, and a number at the limit.
-/
def harshContact : Contact where
  name := "\"\\\x00\n/é🦀"
  kind := .work
  phones :=
    .ofList [("\u001F\"", ""), ("", "\\u0041"), ("ü", "\t")]
  address := some ⟨"", 4294967295⟩

theorem readsBack_contacts_harsh :
    Serde.derived.Serializes ∧
    Serde.derived.Deserializes ∧
    JsonLibrary.compact.Writes .derived ∧
    JsonLibrary.compact.Reads .derived ∧
    ∃ data,
      contactsProgram.marshal .compact harshContact.datum =
        some (.ok data) ∧
      contactsProgram.unmarshal .compact "Contact" data =
        some (.ok harshContact.datum) := by
  rcases
      readsBack_contacts serializes_derived
        deserializes_derived writes_compact reads_compact with
    ⟨_, hContact, _⟩
  exact
    ⟨serializes_derived, deserializes_derived, writes_compact,
      reads_compact, hContact.unmarshal_marshal harshContact⟩

end Sample

end TagWire

------------------------------------------------------------
-- Codecs of Structures
------------------------------------------------------------

namespace TagWire

namespace Sample

open Generated

variable {serde : Serde}

/- The derived JSON value of an address is its JSON form. -/
theorem serialize?_address
    (h : serde.Serializes)
    (a : Address) :
    serde.serialize? contactsProgram a.datum =
      some a.toJson :=
  serialize?_struct h (m := jsonMessage Address.declaration)
    rfl (isDerived_structItem _) (by simp) rfl
    (.cons ⟨rfl, h.string _ a.city⟩
      (.cons ⟨rfl, h.integer _ .uint32 a.zip⟩ .nil))

/- That of a kind is its name. -/
theorem serialize?_kind
    (h : serde.Serializes)
    (k : Kind) :
    serde.serialize? contactsProgram (.variant "Kind" k.name) =
      some (.string k.name) := by
  have hVariant (v : Variant)
      (hv : v ∈ (enumItem .json Kind.declaration).variants) :=
    h.variant contactsProgram "Kind" _ v rfl
      (isDerived_enumItem Kind.declaration) hv
  cases k with
  | personal => exact hVariant ⟨true, "Personal", 0⟩ (by decide)
  | work => exact hVariant ⟨false, "Work", 1⟩ (by decide)

/- That of phone numbers is an object in the order of keys. -/
theorem serialize?_phones
    (h : serde.Serializes)
    (entries : List (String × String)) :
    serde.serialize? contactsProgram
        (.map (entries.map fun e => (.string e.1, .string e.2))) =
      some (.object (entries.map fun e => (e.1, .string e.2))) := by
  refine h.map contactsProgram _ _ ?_
  rw [List.forall₂_map_left_iff, List.forall₂_map_right_iff,
    List.forall₂_same]
  exact fun e _ => ⟨rfl, h.string _ e.2⟩

/- That of a contact is its JSON form. -/
theorem serialize?_contact
    (h : serde.Serializes)
    (c : Contact) :
    serde.serialize? contactsProgram c.datum =
      some c.toJson := by
  rcases c with ⟨name, kind, phones, address⟩
  have hWritten
      {j : Json}
      (hAddress :
        serde.serialize? contactsProgram
            (optionDatum Address.datum address) =
          some j) :
      serde.serialize? contactsProgram
          (Contact.datum ⟨name, kind, phones, address⟩) =
        some
          (.object
            [
              ("name", .string name),
              ("kind", .string kind.name),
              ("phones",
                .object
                  (phones.entries.map fun e =>
                    (e.1, .string e.2))),
              ("address", j)
            ]) :=
    serialize?_struct h (m := jsonMessage Contact.declaration)
      rfl (isDerived_structItem _) (by simp) rfl
      (.cons ⟨rfl, h.string _ name⟩
        (.cons ⟨rfl, serialize?_kind h kind⟩
          (.cons ⟨rfl, serialize?_phones h phones.entries⟩
            (.cons ⟨rfl, hAddress⟩ .nil))))
  cases address with
  | none => exact hWritten (h.absent _)
  | some a =>
      exact
        hWritten ((h.present _ _).trans (serialize?_address h a))

/- That of a lookup is its JSON form. -/
theorem serialize?_lookup
    (h : serde.Serializes)
    (l : Lookup) :
    serde.serialize? contactsProgram l.datum =
      some l.toJson :=
  serialize?_struct h (m := jsonMessage Lookup.declaration)
    rfl (isDerived_structItem _) (by simp) rfl
    (.cons ⟨rfl, h.string _ l.name⟩ .nil)

/-
  With a library that writes without blanks, what is generated
  writes the bytes that the structures are encoded to.
-/
theorem marshal_compact_contacts :
    (∀ c : Contact,
      contactsProgram.marshal .compact c.datum =
        some (WireMessage.encode c)) ∧
    (∀ a : Address,
      contactsProgram.marshal .compact a.datum =
        some (WireMessage.encode a)) ∧
    ∀ l : Lookup,
      contactsProgram.marshal .compact l.datum =
        some (WireMessage.encode l) :=
  ⟨fun c =>
      marshal_compact (m := Contact.declaration) rfl
        (serialize?_contact serializes_derived c),
    fun a =>
      marshal_compact (m := Address.declaration) rfl
        (serialize?_address serializes_derived a),
    fun l =>
      marshal_compact (m := Lookup.declaration) rfl
        (serialize?_lookup serializes_derived l)⟩

end Sample

end TagWire

------------------------------------------------------------
-- Calls of a Directory
------------------------------------------------------------

namespace TagWire

namespace Sample

open Generated

variable {m : Type → Type} [Monad m]

/- The lookup that some data is. -/
def Lookup.ofDatum?
    (d : Datum) :
    Option Lookup :=
  match d.field? "name" with
  | some (.string name) => some ⟨name⟩
  | _ => none

theorem Lookup.ofDatum?_datum
    (l : Lookup) :
    ofDatum? (datum l) = some l := by
  rfl

/- What a directory offers, by names and from data. -/
def Directory.implementation
    (d : Directory m) :
    Implementation m
| "find", data =>
    match Lookup.ofDatum? data with
    | some l => Serve.lift (Contact.datum <$> d.find l)
    | none => Serve.stuck
| _, _ => Serve.stuck

/-
  What is generated to register a directory binds the handler
  of the directory, as far as the library reads and writes
  lookups and contacts as the structures are.
-/
theorem Directory.register_directoryItem
    [LawfulMonad m]
    {lib : JsonLibrary}
    (hLookup :
      RunsAs lib contactsProgram "Lookup" Lookup.datum)
    (hContact :
      RunsAs lib contactsProgram "Contact" Contact.datum)
    (d : Directory m)
    (r : Router (OptionT m))
    (name : String) :
    directoryItem.register lib contactsProgram d.implementation
        r name =
      r.register (methodName name "Find")
        (liftHandler d.findHandler) := by
  have hFind :
      directoryItem.handler lib contactsProgram d.implementation
          "find_handler" =
        liftHandler d.findHandler := by
    funext data
    exact
      handler_eq_ofFunction hLookup hContact
        (fun l => by
          simp only [implementation, Lookup.ofDatum?_datum])
        _ data
  show r.register _ (directoryItem.handler lib contactsProgram
    d.implementation "find_handler") = _
  rw [hFind]

end Sample

end TagWire
