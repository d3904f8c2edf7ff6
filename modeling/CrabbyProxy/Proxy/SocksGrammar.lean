import CrabbyProxy.Proxy.Targets

/-!
# The SOCKS requests

The grammars of the two request formats, and that the parsers accept exactly
these words, answer as the format says and leave the rest of the stream alone.
-/

namespace CrabbyProxy.Proxy

open CrabbyProxy.Stream
set_option autoImplicit false

inductive Socks4Request : List UInt8 → ProxyTarget → Prop
  | connect (port : UInt16) (ip : Ipv4Addr) (userId : List UInt8) (hUserId : 0 ∉ userId) :
    Socks4Request ([0x04, 0x01] ++ u16ToBeBytes port ++ ip.octets.toList ++ userId ++ [0x00])
      ⟨ip.toText, port⟩

inductive Socks5Address : UInt8 → List UInt8 → String → Prop
  | ipv4 (ip : Ipv4Addr) : Socks5Address 0x01 ip.octets.toList ip.toText
  | domain (domain : String) (len : UInt8) (hLen : (Text.asBytes domain).length = len.toNat) :
    Socks5Address 0x03 (len :: Text.asBytes domain) domain
  | ipv6 (ip : Ipv6Addr) : Socks5Address 0x04 ip.octets.toList ip.toText

/-- The part of a SOCKS5 exchange after the greeting. -/
inductive Socks5Connect : List UInt8 → ProxyTarget → Prop
  | connect (reserved addrType : UInt8) {address : List UInt8} {host : String}
      (hAddress : Socks5Address addrType address host) (port : UInt16) :
    Socks5Connect ([0x05, 0x01, reserved, addrType] ++ address ++ u16ToBeBytes port) ⟨host, port⟩

inductive Socks5Request : List UInt8 → ProxyTarget → Prop
  | negotiated (n : UInt8) (methods : List UInt8) (hMethods : methods.length = n.toNat)
      {request : List UInt8} {target : ProxyTarget} (hRequest : Socks5Connect request target) :
    Socks5Request ([0x05, n] ++ methods ++ request) target

theorem socks4_head {request : List UInt8} {target : ProxyTarget}
    (h : Socks4Request request target) : ∃ rest, request = 0x04 :: rest := by
  cases h
  exact ⟨_, rfl⟩

theorem socks5_head {request : List UInt8} {target : ProxyTarget}
    (h : Socks5Request request target) : ∃ rest, request = 0x05 :: rest := by
  cases h
  exact ⟨_, rfl⟩

section Buffers

theorem toList_buffer_one (v : Vector UInt8 1) : v.toList = [v.get 0] := by
  obtain ⟨⟨bytes⟩, h⟩ := v
  match bytes, h with
  | [_], _ => rfl

theorem toList_buffer_two (v : Vector UInt8 2) : v.toList = [v.get 0, v.get 1] := by
  obtain ⟨⟨bytes⟩, h⟩ := v
  match bytes, h with
  | [_, _], _ => rfl

theorem toList_buffer_four (v : Vector UInt8 4) : v.toList = [v.get 0, v.get 1, v.get 2, v.get 3] := by
  obtain ⟨⟨bytes⟩, h⟩ := v
  match bytes, h with
  | [_, _, _, _], _ => rfl

theorem buffer_four_eta (v : Vector UInt8 4) : #v[v.get 0, v.get 1, v.get 2, v.get 3] = v := by
  apply Vector.toList_inj.mp
  rw [toList_buffer_four v]
  rfl

theorem toList_buffer_six (v : Vector UInt8 6) :
    v.toList = #v[v.get 0, v.get 1, v.get 2, v.get 3].toList ++ [v.get 4, v.get 5] := by
  obtain ⟨⟨bytes⟩, h⟩ := v
  match bytes, h with
  | [_, _, _, _, _, _], _ => rfl

theorem toList_buffer_eight (v : Vector UInt8 8) :
    v.toList = [v.get 0, v.get 1] ++ [v.get 2, v.get 3] ++
      #v[v.get 4, v.get 5, v.get 6, v.get 7].toList := by
  obtain ⟨⟨bytes⟩, h⟩ := v
  match bytes, h with
  | [_, _, _, _, _, _, _, _], _ => rfl

theorem toList_buffer_eighteen (v : Vector UInt8 18) :
    v.toList = (v.take 16).toList ++ [v.get 16, v.get 17] := by
  calc
    v.toList = v.toList.take 16 ++ v.toList.drop 16 := (List.take_append_drop 16 _).symm
    _ = (v.take 16).toList ++ (v.drop 16).toList := by rw [Vector.toList_take, Vector.toList_drop]
    _ = (v.take 16).toList ++ [v.get 16, v.get 17] := by
      rw [toList_buffer_two, Vector.get_eq_getElem, Vector.get_eq_getElem, Vector.getElem_drop,
        Vector.getElem_drop]
      rfl

/-- Every list of the right length is the content of a buffer. -/
theorem exists_buffer {n : Nat} {bytes : List UInt8} (h : bytes.length = n) :
    ∃ v : Vector UInt8 n, v.toList = bytes := ⟨fill n bytes, toList_fill h⟩

end Buffers

variable {deadline : Bool}

section UserId

/-- The stream behind reads of these sizes, one after the other. -/
def behind {τ : Type} (sizes : List Nat) (st : Duplex τ) : Duplex τ :=
  sizes.foldl (fun st n => stateOf (readExact n st)) st

theorem userIdRounds_sound {rounds : Nat} {known userId : List UInt8} {st st' : ClientStream}
    (hRounds : st.input.content.length < rounds)
    (h : userIdRounds rounds known st = .ok userId st') :
    ∃ bytes, userId = known ++ bytes ∧ 0 ∉ bytes ∧
      st.input.content = bytes ++ [0x00] ++ st'.input.content ∧
      st'.output.sent = st.output.sent ∧ st' = behind (List.replicate (bytes.length + 1) 1) st := by
  induction rounds generalizing known st with
  | zero => exact absurd hRounds (Nat.not_lt_zero _)
  | succ rounds ih =>
    obtain ⟨byte, st₁, hByte, hRest⟩ := bind_eq_ok.mp h
    have hState : stateOf (readExact 1 st) = st₁ := congrArg stateOf hByte
    obtain ⟨_, _, ⟨rfl, rfl⟩, hContent, hSent⟩ := (@Denotes.readExact _ false 1).sound hByte
    rw [toList_buffer_one] at hContent
    rw [List.append_nil] at hSent
    split at hRest
    · rename_i hZero
      cases hRest
      exact ⟨[], (List.append_nil _).symm, List.not_mem_nil, by rw [hContent, hZero]; rfl, hSent,
        hState.symm⟩
    · rename_i hByte
      have hLength : st.input.content.length = st₁.input.content.length + 1 := by simp [hContent]
      obtain ⟨bytes, rfl, hNul, hContent₁, hSent₁, rfl⟩ := ih (by omega) hRest
      refine ⟨byte.get 0 :: bytes, by simp, ?_, by rw [hContent, hContent₁]; rfl,
        hSent₁.trans hSent, by rw [← hState]; rfl⟩
      exact fun hMem => (List.mem_cons.mp hMem).elim (fun hZero => hByte hZero.symm) hNul

theorem userIdRounds_complete {rounds : Nat} {known bytes rest : List UInt8} {st : ClientStream}
    (hPatient : st.input.Patient st.timed) (hRounds : bytes.length < rounds) (hNul : 0 ∉ bytes)
    (hContent : st.input.content = bytes ++ [0x00] ++ rest) :
    ∃ st', userIdRounds rounds known st = .ok (known ++ bytes) st' ∧ st'.input.content = rest ∧
      st'.output = st.output := by
  induction rounds generalizing known bytes st with
  | zero => exact absurd hRounds (Nat.not_lt_zero _)
  | succ rounds ih =>
    have hOne : ∀ (b : UInt8) (after : List UInt8), st.input.content = b :: after →
        ∃ st₁, readExact 1 st = .ok #v[b] st₁ ∧ st₁.input.content = after ∧
          st₁.output = st.output := by
      intro b after hHead
      have hRead := @readExact_of_patient _ st hPatient 1 (by rw [hHead]; exact Nat.succ_pos _)
      rwa [hHead] at hRead
    cases bytes with
    | nil =>
      obtain ⟨st₁, hRead, hRest, hOutput⟩ := hOne 0 rest hContent
      refine ⟨st₁, ?_, hRest, hOutput⟩
      rw [userIdRounds, bind_ok hRead, List.append_nil]
      rfl
    | cons b bytes =>
      obtain ⟨st₁, hRead, hRest, hOutput⟩ := hOne b _ hContent
      have hb : b ≠ 0 := fun hZero => hNul (by rw [hZero]; exact List.mem_cons_self)
      have hPatient₁ := ((Framing.readExact 1).ok hRead).patient hPatient
      obtain ⟨st', hRun, hDone, hOutput'⟩ := @ih (known ++ [b]) bytes st₁ hPatient₁
        (Nat.lt_of_succ_lt_succ hRounds) (fun hMem => hNul (List.mem_cons_of_mem _ hMem)) hRest
      refine ⟨st', ?_, hDone, hOutput'.trans hOutput⟩
      rw [userIdRounds, bind_ok hRead]
      show (if b = 0 then _ else _ : ClientProgram _) st₁ = _
      rw [if_neg hb]
      simpa using hRun

/-- On a stream that begins with a user-id, the loop returns it and stops behind its zero. -/
theorem readUserId_of_patient {st : ClientStream} (hPatient : st.input.Patient st.timed)
    {userId rest : List UInt8} (hNul : 0 ∉ userId)
    (hContent : st.input.content = userId ++ [0x00] ++ rest) :
    ∃ st', readUserId st = .ok userId st' ∧ st'.input.content = rest ∧
      st'.output = st.output := by
  have hLength : userId.length < st.input.content.length + 1 := by
    rw [hContent, List.length_append, List.length_append]
    omega
  exact @userIdRounds_complete _ [] _ _ _ hPatient hLength hNul hContent

/-- The loop reads a user-id and its zero byte by byte. -/
theorem state_readUserId {st st' : ClientStream} {userId : List UInt8}
    (h : readUserId st = .ok userId st') :
    st' = behind (List.replicate (userId.length + 1) 1) st := by
  obtain ⟨bytes, rfl, _, _, _, hState⟩ := userIdRounds_sound (Nat.lt_succ_self _) h
  exact hState

theorem framing_userIdRounds (rounds : Nat) (userId : List UInt8) :
    Framing (userIdRounds rounds userId) := by
  induction rounds generalizing userId with
  | zero => exact .pure _
  | succ rounds ih => exact (Framing.readExact 1).bind fun _ => .ite (.pure _) (ih _)

/-- A user-id and its terminating zero. -/
def userIdGrammar : Grammar (List UInt8) := fun taken replied userId =>
  0 ∉ userId ∧ taken = userId ++ [0x00] ∧ replied = []

@[simp] theorem userIdGrammar_seq_iff {β : Type} {H : List UInt8 → Grammar β}
    {taken replied : List UInt8} {b : β} : userIdGrammar.seq H taken replied b ↔
      ∃ userId rest, 0 ∉ userId ∧ taken = userId ++ [0x00] ++ rest ∧ H userId rest replied b := by
  constructor
  · rintro ⟨userId, _, rest, _, replied, ⟨hNul, rfl, rfl⟩, h, rfl, rfl⟩
    exact ⟨userId, rest, hNul, rfl, h⟩
  · rintro ⟨userId, rest, hNul, rfl, h⟩
    exact ⟨userId, _, rest, _, replied, ⟨hNul, rfl, rfl⟩, h, rfl, rfl⟩

theorem denotes_readUserId : Denotes deadline readUserId userIdGrammar := by
  refine ⟨fun st => framing_userIdRounds _ _ st, fun {st st' userId} hRun => ?_, ?_⟩
  · obtain ⟨bytes, rfl, hNul, hContent, hSent, _⟩ := userIdRounds_sound (Nat.lt_succ_self _) hRun
    exact ⟨_, [], ⟨hNul, rfl, rfl⟩, hContent, by rw [hSent, List.append_nil]⟩
  · rintro st _ _ rest userId hHealthy ⟨hNul, rfl, rfl⟩ hContent
    obtain ⟨st', hRun, hRest, hOutput⟩ :=
      readUserId_of_patient hHealthy.patient_now hNul hContent
    exact ⟨st', hRun, hRest, by rw [hOutput, List.append_nil]⟩

end UserId

theorem denotes_parseSocks4Target : Denotes deadline parseSocks4Target fun taken replied target =>
    Socks4Request taken target ∧ replied = [] := by
  refine ((Denotes.readExact 8).bind fun buf => .ite (.ioError _ _) (.ite (.ioError _ _)
    (denotes_readUserId.bind fun _ => .pure _))).congr fun taken replied target => ?_
  simp only [Grammar.takes_seq_iff, userIdGrammar_seq_iff, Grammar.ite_iff, Grammar.fails_iff,
    Grammar.returns_iff, and_false, false_or]
  constructor
  · rintro ⟨buf, _, rfl, hVersion, hCommand, userId, _, hNul, rfl, rfl, rfl, rfl⟩
    refine ⟨?_, rfl⟩
    have hWord := Socks4Request.connect (u16FromBeBytes (buf.get 2) (buf.get 3))
      ⟨#v[buf.get 4, buf.get 5, buf.get 6, buf.get 7]⟩ userId hNul
    rw [u16ToBeBytes_fromBeBytes, ← not_not.mp hVersion, ← not_not.mp hCommand] at hWord
    rw [toList_buffer_eight, List.append_nil, ← List.append_assoc]
    exact hWord
  · rintro ⟨⟨port, ip, userId, hNul⟩, rfl⟩
    obtain ⟨high, low, hBytes, rfl⟩ := exists_bytes_of_u16 port
    refine ⟨#v[0x04, 0x01, high, low, ip.octets.get 0, ip.octets.get 1, ip.octets.get 2,
      ip.octets.get 3], userId ++ [0x00], ?_, not_not.mpr rfl, not_not.mpr rfl, userId, [], hNul,
      (List.append_nil _).symm, rfl, rfl, ?_⟩
    · rw [hBytes, toList_buffer_four ip.octets]
      simp
    · exact congrArg (fun octets => (⟨Ipv4Addr.toText ⟨octets⟩, _⟩ : ProxyTarget))
        (buffer_four_eta ip.octets).symm

theorem denotes_parseSocks5Address (addrType : UInt8) :
    Denotes deadline (parseSocks5Address addrType) fun taken replied target =>
      ∃ address, Socks5Address addrType address target.host ∧
        taken = address ++ u16ToBeBytes target.port ∧ replied = [] := by
  refine (Denotes.ite ((Denotes.readExact 6).bind fun _ => .pure _)
    (.ite ((Denotes.readExact 1).bind fun lenBuf => (Denotes.readExact _).bind fun domainBuf =>
        (Denotes.okOr _ _).bind fun domain => (Denotes.readExact 2).bind fun _ => .pure _)
      (.ite ((Denotes.readExact 18).bind fun _ => .pure _) (.ioError _ _)))).congr
    fun taken replied target => ?_
  simp only [Grammar.takes_seq_iff, Grammar.allows_seq_iff, Grammar.ite_iff, Grammar.fails_iff,
    Grammar.returns_iff, and_false, or_false]
  constructor
  · rintro (⟨rfl, buf, _, rfl, rfl, rfl, rfl⟩ | ⟨_, ⟨rfl, lenBuf, _, rfl, domainBuf, _, rfl, domain,
      hDomain, portBuf, _, rfl, rfl, rfl, rfl⟩ | ⟨_, rfl, buf, _, rfl, rfl, rfl, rfl⟩⟩)
    · refine ⟨_, .ipv4 ⟨#v[buf.get 0, buf.get 1, buf.get 2, buf.get 3]⟩, ?_, rfl⟩
      rw [u16ToBeBytes_fromBeBytes, toList_buffer_six, List.append_nil]
    · obtain hBytes := Text.fromUtf8_eq_some_iff.mp hDomain
      refine ⟨_, .domain domain (lenBuf.get 0) ?_, ?_, rfl⟩
      · rw [← hBytes, Vector.length_toList]
      · rw [u16ToBeBytes_fromBeBytes, toList_buffer_one, toList_buffer_two, ← hBytes,
          List.append_nil]
        rfl
    · refine ⟨_, .ipv6 ⟨buf.take 16⟩, ?_, rfl⟩
      rw [u16ToBeBytes_fromBeBytes, toList_buffer_eighteen, List.append_nil]
  · obtain ⟨host, port⟩ := target
    obtain ⟨high, low, hBytes, rfl⟩ := exists_bytes_of_u16 port
    rintro ⟨address, hAddress, rfl, rfl⟩
    dsimp only at hAddress ⊢
    rw [hBytes]
    cases hAddress with
    | ipv4 ip =>
      refine .inl ⟨rfl, #v[ip.octets.get 0, ip.octets.get 1, ip.octets.get 2, ip.octets.get 3, high,
        low], [], ?_, rfl, rfl, ?_⟩
      · rw [toList_buffer_four ip.octets]
        rfl
      · exact congrArg (fun octets => (⟨Ipv4Addr.toText ⟨octets⟩, _⟩ : ProxyTarget))
          (buffer_four_eta ip.octets).symm
    | domain _ len hLen =>
      obtain ⟨domainBuf, hDomain⟩ := exists_buffer hLen
      refine .inr ⟨by decide, .inl ⟨rfl, #v[len], _, rfl, domainBuf, _, ?_, host, ?_, #v[high, low],
        [], rfl, rfl, rfl, rfl⟩⟩
      · exact congrArg (· ++ [high, low]) hDomain.symm
      · exact Text.fromUtf8_eq_some_iff.mpr hDomain
    | ipv6 ip =>
      obtain ⟨buf, hBuf⟩ :=
        @exists_buffer 18 (ip.octets.toList ++ [high, low]) (by simp)
      have hParts := (toList_buffer_eighteen buf).symm.trans hBuf
      obtain ⟨hOctets, hPort⟩ := List.append_inj' hParts rfl
      have hIp : buf.take 16 = ip.octets := Vector.toList_inj.mp hOctets
      simp only [List.cons.injEq, and_true] at hPort
      refine .inr ⟨by decide, .inr ⟨by decide, rfl, buf, [], ?_, rfl, rfl, ?_⟩⟩
      · rw [hBuf, List.append_nil]
      · rw [hPort.1, hPort.2]
        exact congrArg (fun octets => (⟨Ipv6Addr.toText ⟨octets⟩, _⟩ : ProxyTarget)) hIp.symm

theorem denotes_parseSocks5Target : Denotes deadline parseSocks5Target fun taken replied target =>
    Socks5Request taken target ∧ replied = [0x05, 0x00] := by
  refine ((Denotes.readExact 2).bind fun buf => .ite (.ioError _ _)
    ((Denotes.readExact _).bind fun methods => (Denotes.writeAll _).bind fun _ =>
      (Denotes.readExact 4).bind fun reqBuf => .ite (.ioError _ _)
        (denotes_parseSocks5Address _))).congr fun taken replied target => ?_
  simp only [Grammar.takes_seq_iff, Grammar.replies_seq_iff, Grammar.ite_iff, Grammar.fails_iff,
    and_false, false_or, not_or, not_not]
  constructor
  · rintro ⟨buf, _, rfl, hVersion, methods, _, rfl, _, rfl, reqBuf, _, rfl,
      ⟨hReqVersion, hCommand⟩, address, hAddress, rfl, rfl⟩
    refine ⟨?_, rfl⟩
    have hWord := Socks5Request.negotiated (buf.get 1) methods.toList methods.length_toList
      (.connect (reqBuf.get 2) (reqBuf.get 3) hAddress target.port)
    rw [toList_buffer_two, toList_buffer_four, ← List.append_assoc, ← List.append_assoc _ address,
      hVersion, hReqVersion, hCommand]
    exact hWord
  · rintro ⟨⟨n, methods, hMethods, ⟨reserved, addrType, hAddress, port⟩⟩, rfl⟩
    obtain ⟨methodsBuf, hBuf⟩ := exists_buffer hMethods
    refine ⟨#v[0x05, n], _, List.append_assoc _ _ _, rfl, methodsBuf, _, ?_, [], rfl,
      #v[0x05, 0x01, reserved, addrType], _, rfl, ⟨rfl, rfl⟩, _, hAddress, rfl, rfl⟩
    exact congrArg (· ++ _) hBuf.symm

end CrabbyProxy.Proxy
