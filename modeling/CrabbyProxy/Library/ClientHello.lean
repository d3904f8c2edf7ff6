import CrabbyProxy.Library.Text

/-!
# The first message of a TLS client

A ClientHello in its handshake record, with every vector behind its length. Each
structure carries the bounds that make its lengths fit their fields.
-/

namespace CrabbyProxy.Tls
set_option autoImplicit false

def bigEndian : Nat → Nat → List UInt8
  | 0, _ => []
  | width + 1, n => bigEndian width (n / 256) ++ [UInt8.ofNat n]

@[simp] theorem length_bigEndian (width n : Nat) : (bigEndian width n).length = width := by
  induction width generalizing n with
  | zero => rfl
  | succ width ih => rw [bigEndian, List.length_append, ih, List.length_singleton]

/-- A vector behind its length. -/
def prefixed (width : Nat) (bytes : List UInt8) : List UInt8 :=
  bigEndian width bytes.length ++ bytes

@[simp] theorem length_prefixed (width : Nat) (bytes : List UInt8) :
    (prefixed width bytes).length = width + bytes.length := by
  rw [prefixed, List.length_append, length_bigEndian]

/-- An entry of the list in a server_name extension; type 0 is a host name. -/
structure ServerName where
  nameType : UInt8
  name : List UInt8
  fits : name.length < 2 ^ 16
  host_nonempty : nameType = 0 → name ≠ []

def ServerName.bytes (entry : ServerName) : List UInt8 := entry.nameType :: prefixed 2 entry.name

/-- At least one name, and at most one of each type. -/
structure ServerNameList where
  names : List ServerName
  nonempty : names ≠ []
  distinct : (names.map ServerName.nameType).Nodup
  fits : (names.flatMap ServerName.bytes).length < 2 ^ 16 - 2

def ServerNameList.bytes (list : ServerNameList) : List UInt8 :=
  prefixed 2 (list.names.flatMap ServerName.bytes)

inductive Extension where
  | serverName (list : ServerNameList)
  | other (type : UInt16) (data : List UInt8) (not_serverName : type ≠ 0)
    (fits : data.length < 2 ^ 16)

namespace Extension

def type : Extension → UInt16
  | serverName _ => 0
  | other type .. => type

def data : Extension → List UInt8
  | serverName list => list.bytes
  | other _ data .. => data

def bytes (extension : Extension) : List UInt8 :=
  bigEndian 2 extension.type.toNat ++ prefixed 2 extension.data

end Extension

/-- A hello without extensions may end where they would stand. -/
structure ClientHello where
  version : UInt16
  random : Vector UInt8 32
  sessionId : List UInt8
  cipherSuites : List UInt16
  compressionMethods : List UInt8
  extensions : Option (List Extension)
  sessionId_fits : sessionId.length ≤ 32
  cipherSuites_nonempty : cipherSuites ≠ []
  cipherSuites_fit : cipherSuites.length < 2 ^ 15
  compressionMethods_nonempty : compressionMethods ≠ []
  compressionMethods_fit : compressionMethods.length < 2 ^ 8
  extensions_distinct : ((extensions.getD []).map Extension.type).Nodup
  extensions_fit : ((extensions.getD []).flatMap Extension.bytes).length < 2 ^ 16

namespace ClientHello

/-- The body of the message up to its extensions. -/
def front (hello : ClientHello) : List UInt8 :=
  bigEndian 2 hello.version.toNat ++ hello.random.toList ++ prefixed 1 hello.sessionId ++
    prefixed 2 (hello.cipherSuites.flatMap fun suite => bigEndian 2 suite.toNat) ++
    prefixed 1 hello.compressionMethods

def body (hello : ClientHello) : List UInt8 :=
  hello.front ++ match hello.extensions with
    | none => []
    | some extensions => prefixed 2 (extensions.flatMap Extension.bytes)

/-- The handshake message. -/
def message (hello : ClientHello) : List UInt8 := 0x01 :: prefixed 3 hello.body

end ClientHello

/-- A handshake record that holds a whole ClientHello. -/
structure HelloRecord where
  version : UInt16
  hello : ClientHello
  fits : hello.message.length ≤ 2 ^ 14

namespace HelloRecord

def bytes (record : HelloRecord) : List UInt8 :=
  0x16 :: bigEndian 2 record.version.toNat ++ prefixed 2 record.hello.message

/-- The record up to an extension that follows these. -/
def upTo (record : HelloRecord) (before : List Extension) : List UInt8 :=
  0x16 :: bigEndian 2 record.version.toNat ++ bigEndian 2 record.hello.message.length ++
    0x01 :: bigEndian 3 record.hello.body.length ++ record.hello.front ++
    bigEndian 2 ((record.hello.extensions.getD []).flatMap Extension.bytes).length ++
    before.flatMap Extension.bytes

theorem bytes_eq_upTo {record : HelloRecord} {before after : List Extension}
    {extension : Extension}
    (h : record.hello.extensions = some (before ++ extension :: after)) :
    record.bytes = record.upTo before ++ extension.bytes ++ after.flatMap Extension.bytes := by
  have hBody : record.hello.body = record.hello.front ++
      prefixed 2 ((before ++ extension :: after).flatMap Extension.bytes) := by
    rw [ClientHello.body, h]
  calc record.bytes
      = 0x16 :: bigEndian 2 record.version.toNat ++ bigEndian 2 record.hello.message.length ++
          0x01 :: bigEndian 3 record.hello.body.length ++ record.hello.body := by
        simp only [bytes, prefixed, ClientHello.message, List.cons_append, List.append_assoc]
    _ = 0x16 :: bigEndian 2 record.version.toNat ++ bigEndian 2 record.hello.message.length ++
          0x01 :: bigEndian 3 record.hello.body.length ++ (record.hello.front ++
            prefixed 2 ((before ++ extension :: after).flatMap Extension.bytes)) :=
        congrArg _ hBody
    _ = record.upTo before ++ extension.bytes ++ after.flatMap Extension.bytes := by
        rw [upTo, h, Option.getD_some]
        simp only [prefixed, List.flatMap_append, List.flatMap_cons, List.cons_append,
          List.append_assoc]

theorem length_upTo_pos (record : HelloRecord) (before : List Extension) :
    0 < (record.upTo before).length := List.length_pos_iff.mpr (List.cons_ne_nil _ _)

theorem length_bytes_ge (record : HelloRecord) : 43 ≤ record.bytes.length := by
  simp only [bytes, ClientHello.message, ClientHello.body, ClientHello.front, List.cons_append,
    List.length_cons, List.length_append, length_bigEndian, length_prefixed, Vector.length_toList]
  omega

end HelloRecord

/-- The wire form of a server_name extension, byte by byte up to its first name. -/
theorem Extension.bytes_serverName {list : ServerNameList} {first : ServerName}
    {others : List ServerName} (h : list.names = first :: others) :
    (serverName list).bytes =
      0x00 :: 0x00 :: UInt8.ofNat (list.bytes.length / 256) :: UInt8.ofNat list.bytes.length ::
      UInt8.ofNat ((list.names.flatMap ServerName.bytes).length / 256) ::
      UInt8.ofNat (list.names.flatMap ServerName.bytes).length :: first.nameType ::
      UInt8.ofNat (first.name.length / 256) :: UInt8.ofNat first.name.length ::
      (first.name ++ others.flatMap ServerName.bytes) := by
  have hList : list.bytes = bigEndian 2 (list.names.flatMap ServerName.bytes).length ++
      (first.bytes ++ others.flatMap ServerName.bytes) := by
    rw [ServerNameList.bytes, prefixed, h, List.flatMap_cons]
  have hType : bigEndian 2 (0 : UInt16).toNat = [0x00, 0x00] := by decide
  calc (serverName list).bytes
      = bigEndian 2 (0 : UInt16).toNat ++ (bigEndian 2 list.bytes.length ++ list.bytes) := rfl
    _ = 0x00 :: 0x00 :: bigEndian 2 list.bytes.length ++ list.bytes := by rw [hType]; rfl
    _ = 0x00 :: 0x00 :: bigEndian 2 list.bytes.length ++
          (bigEndian 2 (list.names.flatMap ServerName.bytes).length ++
            (first.bytes ++ others.flatMap ServerName.bytes)) := congrArg _ hList
    _ = _ := rfl

theorem ServerNameList.length_bytes {list : ServerNameList} {first : ServerName}
    {others : List ServerName} (h : list.names = first :: others) :
    list.bytes.length = 5 + first.name.length + (others.flatMap ServerName.bytes).length := by
  rw [bytes, length_prefixed, h, List.flatMap_cons, List.length_append, ServerName.bytes,
    List.length_cons, length_prefixed]
  omega

theorem ServerNameList.length_bytes_lt (list : ServerNameList) : list.bytes.length < 2 ^ 16 := by
  have hFits := list.fits
  rw [bytes, length_prefixed]
  omega

end CrabbyProxy.Tls
