import CrabbyProxy.Library.ClientHello
import CrabbyProxy.Proxy.SniScan

/-!
# Server names of ClientHello messages

The scan knows nothing of the structure of a ClientHello. It meets the
server_name extension one byte early, if that byte happens to be zero.
-/

namespace CrabbyProxy.Proxy

open CrabbyProxy.Tls
set_option autoImplicit false

variable {record : HelloRecord} {list : ServerNameList} {before after : List Extension}
  {data : List UInt8} {host other : String}

/-- The host_name entry of a list, when it is text of at most 255 bytes. -/
def ListsHost (list : ServerNameList) (host : String) : Prop :=
  ∃ entry ∈ list.names, entry.nameType = 0 ∧ entry.name = Text.asBytes host ∧
    entry.name.length ≤ 255

/-- The host in the server_name extension of a ClientHello. -/
def NamesHost (hello : ClientHello) (host : String) : Prop :=
  ∃ list, .serverName list ∈ hello.extensions.getD [] ∧ ListsHost list host

theorem asBytes_ne_nil_of_listsHost (h : ListsHost list host) : Text.asBytes host ≠ [] := by
  obtain ⟨entry, _, hType, hName, _⟩ := h
  rw [← hName]
  exact entry.host_nonempty hType

theorem ListsHost.unique (h : ListsHost list host) (h' : ListsHost list other) : host = other := by
  obtain ⟨entry, hMem, hType, hName, _⟩ := h
  obtain ⟨entry', hMem', hType', hName', _⟩ := h'
  obtain rfl := List.inj_on_of_nodup_map list.distinct hMem hMem' (hType.trans hType'.symm)
  exact Text.asBytes_inj (hName.symm.trans hName')

theorem NamesHost.unique {hello : ClientHello} (h : NamesHost hello host)
    (h' : NamesHost hello other) : host = other := by
  obtain ⟨list, hMem, hHost⟩ := h
  obtain ⟨list', hMem', hHost'⟩ := h'
  have hSame := List.inj_on_of_nodup_map hello.extensions_distinct hMem hMem' rfl
  obtain rfl := Extension.serverName.inj hSame
  exact hHost.unique hHost'

/-- What the scan sees of the server_name extension: a zero byte before it, less than
256 bytes in it, and the host as the first name. -/
structure InView (lead : List UInt8) (list : ServerNameList) (host : String) : Prop where
  zero_before : lead.getLast? = some 0x00
  short : list.bytes.length < 2 ^ 8
  host_first : list.names.head?.map ServerName.name = some (Text.asBytes host)

theorem ofNat_div_eq_zero_iff {n : Nat} (h : n < 2 ^ 16) :
    UInt8.ofNat (n / 256) = 0 ↔ n < 2 ^ 8 := by
  rw [← UInt8.toNat_inj, UInt8.toNat_ofNat', UInt8.toNat_zero]
  omega

theorem NameAt.inView {front tail : List UInt8} {z : UInt8}
    (h : NameAt (front ++ [z] ++ (Extension.serverName list).bytes ++ tail) front.length host) :
    InView (front ++ [z]) list host := by
  obtain ⟨first, others, hNames⟩ := List.exists_cons_of_ne_nil list.nonempty
  obtain ⟨before, skipped, length, after, hData, hBefore, hSkipped, hLength, -⟩ := h
  match skipped, hSkipped with
  | [s₁, s₂, s₃, s₄, s₅], _ =>
    rw [Extension.bytes_serverName hNames] at hData
    simp only [List.append_assoc, List.cons_append, List.nil_append] at hData
    obtain ⟨rfl, hRest⟩ := List.append_inj hData hBefore.symm
    simp only [List.cons.injEq] at hRest
    obtain ⟨rfl, -, -, hHigh, -, -, -, -, -, rfl, hName⟩ := hRest
    have hShort := (ofNat_div_eq_zero_iff list.length_bytes_lt).mp hHigh
    have hWhole := ServerNameList.length_bytes hNames
    rw [UInt8.toNat_ofNat_of_lt' (by simp only [UInt8.size]; omega)] at hLength
    refine ⟨by rw [List.getLast?_concat], hShort, ?_⟩
    rw [hNames, List.head?_cons, Option.map_some, (List.append_inj hName hLength.symm).1]

theorem InView.nameAt {front tail : List UInt8} {z : UInt8} (hHost : Text.asBytes host ≠ [])
    (h : InView (front ++ [z]) list host) :
    NameAt (front ++ [z] ++ (Extension.serverName list).bytes ++ tail) front.length host := by
  obtain ⟨first, others, hNames⟩ := List.exists_cons_of_ne_nil list.nonempty
  obtain ⟨hZero, hShort, hFirst⟩ := h
  rw [List.getLast?_concat, Option.some.injEq] at hZero
  rw [hNames, List.head?_cons, Option.map_some, Option.some.injEq] at hFirst
  have hWhole := ServerNameList.length_bytes hNames
  have hLength : (UInt8.ofNat first.name.length).toNat = first.name.length :=
    UInt8.toNat_ofNat_of_lt' (by simp only [UInt8.size]; omega)
  refine ⟨front, [UInt8.ofNat list.bytes.length,
    UInt8.ofNat ((list.names.flatMap ServerName.bytes).length / 256),
    UInt8.ofNat (list.names.flatMap ServerName.bytes).length, first.nameType,
    UInt8.ofNat (first.name.length / 256)], UInt8.ofNat first.name.length,
    others.flatMap ServerName.bytes ++ tail, ?_, rfl, rfl, ?_, ?_⟩
  · rw [Extension.bytes_serverName hNames, hZero,
      (ofNat_div_eq_zero_iff list.length_bytes_lt).mpr hShort, ← hFirst]
    simp only [List.append_assoc, List.cons_append, List.nil_append]
  · rw [hLength, hFirst]
  · exact List.append_ne_nil_of_left_ne_nil hHost _

theorem extractSniFromTls_record {data : ByteSlice} (hWhole : record.bytes <+: data.bytes) :
    extractSniFromTls data.bytes =
      .ok ((List.range (data.bytes.length - 10)).findSome? (sniText data.bytes)) := by
  obtain ⟨rest, hData⟩ := hWhole
  have hLong := record.length_bytes_ge
  have hLength := congrArg List.length hData
  rw [List.length_append] at hLength
  have hHandshake : data.bytes.head? = some 0x16 := by
    rw [← hData]
    rfl
  rw [extractSniFromTls_eq_ok data.fits, if_pos ⟨by omega, hHandshake⟩]

/-- What the extraction from a record promises. -/
structure ExtractsName (hello : ClientHello) (data : List UInt8) : Prop where
  found : ∀ host, extractSniFromTls data = .ok (some host) ↔ NamesHost hello host
  absent : (∀ host, ¬NamesHost hello host) → extractSniFromTls data = .ok none

/-- The bytes of a record and of what follows it that the scan reads right: without a
host nothing in them looks like a name; with one, either the extension is in view and
nothing before it looks like a name, or the first name stands elsewhere and is the same. -/
inductive ReadsRight (record : HelloRecord) (data : List UInt8) : Prop
  | nameless (hNone : ∀ host, ¬NamesHost record.hello host) (hName : ∀ i name, ¬NameAt data i name)
  | inPlace {before after : List Extension} {list : ServerNameList} {host : String}
      (hExtensions : record.hello.extensions = some (before ++ .serverName list :: after))
      (hHost : ListsHost list host) (hView : InView (record.upTo before) list host)
      (hFirst : ∀ i, i + 1 < (record.upTo before).length → ∀ name, ¬NameAt data i name)
  | elsewhere {before after : List Extension} {list : ServerNameList} {host : String} {i : Nat}
      (hExtensions : record.hello.extensions = some (before ++ .serverName list :: after))
      (hHost : ListsHost list host) (hApart : i + 1 ≠ (record.upTo before).length)
      (hFirst : FirstName data i host)

theorem nameAt_extension_iff (hWhole : record.bytes <+: data)
    (hExtensions : record.hello.extensions = some (before ++ .serverName list :: after))
    (hHost : ListsHost list host) {i : Nat} (hi : i + 1 = (record.upTo before).length) :
    NameAt data i host ↔ InView (record.upTo before) list host := by
  obtain ⟨rest, rfl⟩ := hWhole
  obtain ⟨front, z, hLead⟩ := (List.eq_nil_or_concat (record.upTo before)).resolve_left
    (List.cons_ne_nil _ _)
  rw [List.concat_eq_append] at hLead
  rw [hLead, List.length_append, List.length_singleton, Nat.add_right_cancel_iff] at hi
  rw [HelloRecord.bytes_eq_upTo hExtensions, hLead, List.append_assoc, hi]
  exact ⟨NameAt.inView, InView.nameAt (asBytes_ne_nil_of_listsHost hHost)⟩

theorem namesHost_of_extensions
    (hExtensions : record.hello.extensions = some (before ++ .serverName list :: after))
    (hHost : ListsHost list host) : NamesHost record.hello host := by
  refine ⟨list, ?_, hHost⟩
  rw [hExtensions, Option.getD_some]
  exact List.mem_append_right _ List.mem_cons_self

theorem exists_extensions_of_namesHost (h : NamesHost record.hello host) :
    ∃ before list after, record.hello.extensions = some (before ++ .serverName list :: after) ∧
      ListsHost list host := by
  obtain ⟨list, hMem, hHost⟩ := h
  cases hExtensions : record.hello.extensions with
  | none =>
    rw [hExtensions] at hMem
    cases hMem
  | some extensions =>
    rw [hExtensions, Option.getD_some] at hMem
    obtain ⟨before, after, rfl⟩ := List.append_of_mem hMem
    exact ⟨before, list, after, rfl, hHost⟩

theorem ExtractsName.readsRight {data : ByteSlice} (hWhole : record.bytes <+: data.bytes)
    (h : ExtractsName record.hello data.bytes) : ReadsRight record data.bytes := by
  have hRecord := extractSniFromTls_record hWhole
  by_cases hNone : ∀ host, ¬NamesHost record.hello host
  · have hAbsent := h.absent hNone
    rw [hRecord, Except.ok.injEq] at hAbsent
    exact .nameless hNone (findSome?_sniText_eq_none_iff.mp hAbsent)
  · obtain ⟨host, hNames⟩ := not_forall_not.mp hNone
    have hFound := (h.found host).mpr hNames
    rw [hRecord, Except.ok.injEq] at hFound
    obtain ⟨i, hFirst⟩ := findSome?_sniText_eq_some_iff.mp hFound
    obtain ⟨before, list, after, hExtensions, hHost⟩ := exists_extensions_of_namesHost hNames
    by_cases hi : i + 1 = (record.upTo before).length
    · refine .inPlace hExtensions hHost
        ((nameAt_extension_iff hWhole hExtensions hHost hi).mp hFirst.named) ?_
      intro j hj
      exact hFirst.first j (by omega)
    · exact .elsewhere hExtensions hHost hi hFirst

theorem ExtractsName.of_first {data : ByteSlice} (hWhole : record.bytes <+: data.bytes)
    (hNames : NamesHost record.hello host) {i : Nat} (hFirst : FirstName data.bytes i host) :
    ExtractsName record.hello data.bytes := by
  have hFound : extractSniFromTls data.bytes = .ok (some host) :=
    (extractSniFromTls_record hWhole).trans
      (congrArg Except.ok (findSome?_sniText_eq_some_iff.mpr ⟨i, hFirst⟩))
  refine ⟨fun name => ?_, fun hNone => absurd hNames (hNone host)⟩
  rw [hFound, Except.ok.injEq, Option.some.injEq]
  constructor
  · rintro rfl
    exact hNames
  · exact hNames.unique

/-- The name of a ClientHello is extracted exactly when the scan happens to read it right. -/
theorem extractSniFromTls_hello_iff (record : HelloRecord) (data : ByteSlice)
    (hWhole : record.bytes <+: data.bytes) :
    ExtractsName record.hello data.bytes ↔ ReadsRight record data.bytes := by
  constructor
  · exact fun h => h.readsRight hWhole
  · intro h
    cases h with
    | nameless hNone hName =>
      have hAbsent := (extractSniFromTls_record hWhole).trans
        (congrArg Except.ok (findSome?_sniText_eq_none_iff.mpr hName))
      refine ⟨fun host => iff_of_false ?_ (hNone host), fun _ => hAbsent⟩
      rw [hAbsent]
      rintro ⟨⟩
    | @inPlace before _ _ _ hExtensions hHost hView hFirst =>
      have hLast := Nat.sub_add_cancel (record.length_upTo_pos before)
      have hName := (nameAt_extension_iff hWhole hExtensions hHost hLast).mpr hView
      exact .of_first hWhole (namesHost_of_extensions hExtensions hHost)
        ⟨hName, fun j hj => hFirst j (by omega)⟩
    | elsewhere hExtensions hHost _ hFirst =>
      exact .of_first hWhole (namesHost_of_extensions hExtensions hHost) hFirst

def exampleNames : ServerNameList where
  names := [⟨0, Text.asBytes "example.com", by decide, by decide⟩]
  nonempty := by decide
  distinct := by decide
  fits := by decide

/-- A hello that names its host first thing. -/
def exampleHello : ClientHello where
  version := 0x0303
  random := .replicate 32 0xa5
  sessionId := []
  cipherSuites := [0xc02f]
  compressionMethods := [0]
  extensions := some [.serverName exampleNames]
  sessionId_fits := by decide
  cipherSuites_nonempty := by decide
  cipherSuites_fit := by decide
  compressionMethods_nonempty := by decide
  compressionMethods_fit := by decide
  extensions_distinct := by decide
  extensions_fit := by decide

def exampleRecord : HelloRecord := ⟨0x0301, exampleHello, by decide⟩

/-- The byte before the extension is the length of the extensions, and not zero. -/
theorem example_name_missed :
    NamesHost exampleHello "example.com" ∧ extractSniFromTls exampleRecord.bytes = .ok none ∧
    ¬ExtractsName exampleHello exampleRecord.bytes := by
  have hNames : NamesHost exampleHello "example.com" :=
    ⟨exampleNames, List.mem_singleton_self _, _, List.mem_singleton_self _, rfl, rfl, by decide⟩
  have hMissed : extractSniFromTls exampleRecord.bytes = .ok none := by decide +kernel
  refine ⟨hNames, hMissed, fun h => ?_⟩
  have hFound := (h.found "example.com").mpr hNames
  rw [hMissed] at hFound
  cases hFound

/-- The renegotiation_info of a first handshake, which ends in a zero byte. -/
def renegotiationInfo : Extension := .other 0xff01 [0] (by decide) (by decide)

def renegotiatingHello : ClientHello :=
  { exampleHello with
    extensions := some [renegotiationInfo, .serverName exampleNames]
    extensions_distinct := by decide
    extensions_fit := by decide }

def renegotiatingRecord : HelloRecord := ⟨0x0301, renegotiatingHello, by decide⟩

theorem extractSniFromTls_hello_iff_renegotiating :
    ExtractsName renegotiatingHello renegotiatingRecord.bytes := by
  have hNone : ∀ i ∈ List.range ((renegotiatingRecord.upTo [renegotiationInfo]).length - 1),
      sniText renegotiatingRecord.bytes i = none := by decide +kernel
  apply (extractSniFromTls_hello_iff renegotiatingRecord ⟨renegotiatingRecord.bytes, by decide⟩
    List.prefix_rfl).mpr
  refine @ReadsRight.inPlace _ _ [renegotiationInfo] [] exampleNames "example.com" rfl
    ⟨_, List.mem_singleton_self _, rfl, rfl, by decide⟩ ⟨by decide, by decide, rfl⟩ ?_
  intro i hi name hName
  have hText := hName.reads.2
  rw [hNone i (List.mem_range.mpr (Nat.lt_sub_of_add_lt hi))] at hText
  cases hText

end CrabbyProxy.Proxy
