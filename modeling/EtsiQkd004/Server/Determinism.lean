import EtsiQkd004.Server.Servlet
import EtsiQkd004.Wire.Completion

/-! When the memory behind a received payload, or behind decoded metadata, cannot influence
whether the servlet answers and with which frame. Two runs are compared that share everything
but that memory and do not run out of it. -/
namespace EtsiQkd004
open WireCodec Registry

/-- The frame that is sent. Less than a header is no frame. -/
def Outcome.frame? : Outcome → Option Bytes
  | .sent bytes => if 8 ≤ bytes.length then some bytes else none
  | .finished | .readFault | .aborted | .overrun | .nullSend => none

/-- The frame that carries a response, if it can be sent. -/
def framed [OpenSsl] (p : Response) : Option Bytes := (respond p.frame).frame?

section Framed
variable [OpenSsl]

lemma framed_of_fits {p : Response} {f : Frame} (hf : p.frame = some f)
    (h : 8 + p.toStream.length < 2^31) :
    framed p = some (messageFrame p.service p.toStream).written := by
  have hlen : 8 ≤ (messageFrame p.service p.toStream).written.length := by
    rw [messageFrame_written_length]
    omega
  rw [framed,respond_of_fits hf h,Outcome.frame?,if_pos hlen]

lemma framed_none {p : Response} (h : 2^31 ≤ 8 + p.toStream.length) : framed p = none := by
  rw [framed]
  cases hf : p.frame with
  | none => rfl
  | some f =>
    rw [Response.frame_eq hf,respond]
    split_ifs with hover
    · rfl
    · rw [messageFrame_overrun_iff,not_le] at hover
      have hshort := messageFrame_sent_short p.service h hover
      rw [Outcome.frame?,if_neg (not_le.mpr hshort)]

lemma framed_eq_some {p : Response} {f : Bytes} (h : framed p = some f) :
    8 + p.toStream.length < 2^31 ∧ f = (messageFrame p.service p.toStream).written := by
  have hfits : 8 + p.toStream.length < 2^31 := by
    by_contra hn
    rw [framed_none (not_lt.mp hn)] at h
    contradiction
  refine ⟨hfits,?_⟩
  cases hf : p.frame with
  | none =>
    rw [framed,hf] at h
    cases h
  | some g =>
    rw [framed_of_fits hf hfits] at h
    exact (Option.some.inj h).symm

/-- Responses with the same frame have the same encoding. -/
lemma framed_inj {p p' : Response} {f : Bytes} (h : framed p = some f) (h' : framed p' = some f) :
    p.toStream = p'.toStream := by
  have he := (framed_eq_some h).2.symm.trans (framed_eq_some h').2
  exact (List.append_inj he rfl).2

lemma framed_openConnect_isSome {p : OpenConnectResponse}
    (h : p.qos.metadataMimetype.chars.length ≤ 255) : ∃ f, framed (.openConnect p) = some f := by
  obtain ⟨f,hf⟩ := openConnectResponseFrame_isSome h
  have hlen : 8 + (Response.openConnect p).toStream.length < 2^31 := by
    rw [Response.toStream,qkdOpenConnectResponseToStream_length]
    omega
  exact ⟨_,framed_of_fits (p := .openConnect p) hf hlen⟩

lemma framed_getKey_isSome {p : GetKeyResponse}
    (h : 24 + p.keyBuffer.data.length + p.metadata.data.length < 2^31) :
    ∃ f, framed (.getKey p) = some f := by
  have hlen : 8 + (Response.getKey p).toStream.length < 2^31 := by
    rw [Response.toStream,qkdGetKeyResponseToStream_length]
    omega
  exact ⟨_,framed_of_fits (p := .getKey p) rfl hlen⟩

/-- A frame determines the response it carries. -/
lemma framed_openConnect_inj {p p' : OpenConnectResponse} {f : Bytes}
    (h : framed (.openConnect p) = some f) (h' : framed (.openConnect p') = some f) : p=p' :=
  (qkdOpenConnectResponse_exact.append_inj (congrArg (· ++ []) (framed_inj h h'))).1

lemma framed_getKey_inj {p p' : GetKeyResponse} {f : Bytes}
    (h : framed (.getKey p) = some f) (h' : framed (.getKey p') = some f) : p=p' :=
  (qkdGetKeyResponse_exact.append_inj (congrArg (· ++ []) (framed_inj h h'))).1

end Framed

variable {σ : Type} (libc : Prng σ)

/-- The outcome of a session, over the memory `tail` behind the payload and `beyond` behind the
decoded metadata. -/
def servletOutcome [OpenSsl] (s : Server σ) (env : Env) (header : QkdHeader) (payload tail : Bytes)
    (beyond : ℕ → UInt8) : Outcome :=
  (qkdServlet (serverCalls libc (env.withBeyond beyond)) header payload tail s).1

/-- Any two runs over any memory that is large enough to be read answer alike. -/
def Determined [OpenSsl] (s : Server σ) (env : Env) (header : QkdHeader) (payload : Bytes) : Prop :=
  ∀ tail₁ tail₂ : Bytes, tail₁.length < 2^63 → tail₂.length < 2^63 → ∀ beyond₁ beyond₂,
    servletOutcome libc s env header payload tail₁ beyond₁ ≠ .readFault →
    servletOutcome libc s env header payload tail₂ beyond₂ ≠ .readFault →
    (servletOutcome libc s env header payload tail₁ beyond₁).frame? =
      (servletOutcome libc s env header payload tail₂ beyond₂).frame?

/-- The servlet reads the request `q` from some memory that starts with the payload. -/
def Readable (payload : Bytes) (q : Request) : Prop :=
  ∃ tail rest : Bytes, tail.length < 2^63 ∧ payload ++ tail = q.toStream ++ rest

lemma readable_of_extends {payload : Bytes} {q : Request} (h : payload <+: q.toStream)
    (hlen : q.toStream.length < 2^63) : Readable payload q := by
  obtain ⟨tail,ht⟩ := h
  refine ⟨tail,[],?_,by rw [ht,List.append_nil]⟩
  have hl := congrArg List.length ht
  rw [List.length_append] at hl
  omega

lemma respond_ne_readFault [OpenSsl] (f : Option Frame) : respond f ≠ .readFault := by
  cases f with
  | none => simp [respond]
  | some f =>
    rw [respond]
    split_ifs
    · simp
    · simp

lemma servletOutcome_serve [OpenSsl] {s : Server σ} {env : Env} {header : QkdHeader} {q : Request}
    (hs : header.service=q.service.code) {payload tail rest : Bytes}
    (h : payload ++ tail = q.toStream ++ rest) (beyond : ℕ → UInt8) :
    servletOutcome libc s env header payload tail beyond =
      respond (serve libc s (q,env.withBeyond beyond)).1.frame := by
  rw [servletOutcome,qkdServlet_serve libc s q _ hs rest h]

section Services
variable [OpenSsl] {s : Server σ} {env : Env} {header : QkdHeader} {payload : Bytes}

/-- Runs over arbitrary memory are requests that can be read from it: for a service whose
requests are those that `w` makes of what its branch of the servlet decodes. -/
lemma determined_iff {α : Type} {w : α → Request} {fromStream : Decoder UInt8 α}
    (hexact : Exact (fun r => (w r).toStream) fromStream)
    (hservice : ∀ r, header.service=(w r).service.code)
    (hdecoded : ∀ tail beyond, servletOutcome libc s env header payload tail beyond ≠ .readFault →
      ∃ r rest, fromStream.run (payload ++ tail) = some (r,rest)) :
    Determined libc s env header payload ↔
      ∀ r₁ r₂, Readable payload (w r₁) → Readable payload (w r₂) → ∀ beyond₁ beyond₂,
        framed (serve libc s (w r₁,env.withBeyond beyond₁)).1 =
          framed (serve libc s (w r₂,env.withBeyond beyond₂)).1 := by
  constructor
  · intro h r₁ r₂ ⟨tail₁,rest₁,hl₁,hr₁⟩ ⟨tail₂,rest₂,hl₂,hr₂⟩ beyond₁ beyond₂
    have h := h tail₁ tail₂ hl₁ hl₂ beyond₁ beyond₂
    rw [servletOutcome_serve libc (hservice r₁) hr₁,servletOutcome_serve libc (hservice r₂) hr₂] at h
    exact h (respond_ne_readFault _) (respond_ne_readFault _)
  · intro h tail₁ tail₂ hl₁ hl₂ beyond₁ beyond₂ hf₁ hf₂
    obtain ⟨r₁,rest₁,hd₁⟩ := hdecoded tail₁ beyond₁ hf₁
    obtain ⟨r₂,rest₂,hd₂⟩ := hdecoded tail₂ beyond₂ hf₂
    have hr₁ := (hexact _ _ _).mp hd₁
    have hr₂ := (hexact _ _ _).mp hd₂
    rw [servletOutcome_serve libc (hservice r₁) hr₁,servletOutcome_serve libc (hservice r₂) hr₂]
    exact h r₁ r₂ ⟨tail₁,rest₁,hl₁,hr₁⟩ ⟨tail₂,rest₂,hl₂,hr₂⟩ beyond₁ beyond₂

lemma determined_openConnect_iff (hs : header.service=QkdService.openConnectRequest.code) :
    Determined libc s env header payload ↔
      ∀ r₁ r₂, Readable payload (.openConnect r₁) → Readable payload (.openConnect r₂) →
        ∀ beyond₁ beyond₂, framed (serve libc s (.openConnect r₁,env.withBeyond beyond₁)).1 =
          framed (serve libc s (.openConnect r₂,env.withBeyond beyond₂)).1 := by
  apply determined_iff libc (w := .openConnect) qkdOpenConnectRequest_exact (fun _ => hs)
  intro tail beyond h
  simp only [servletOutcome,qkdServlet,hs] at h
  exact branch_decoded h

lemma determined_getKey_iff (hs : header.service=QkdService.getKeyRequest.code) :
    Determined libc s env header payload ↔
      ∀ r₁ r₂, Readable payload (.getKey r₁) → Readable payload (.getKey r₂) →
        ∀ beyond₁ beyond₂, framed (serve libc s (.getKey r₁,env.withBeyond beyond₁)).1 =
          framed (serve libc s (.getKey r₂,env.withBeyond beyond₂)).1 := by
  apply determined_iff libc (w := .getKey) qkdGetKeyRequest_exact (fun _ => hs)
  intro tail beyond h
  simp only [servletOutcome,qkdServlet,hs] at h
  exact branch_decoded h

/-- A CLOSE is answered without regard to its payload. -/
lemma close_determined (hs : header.service=QkdService.closeRequest.code) :
    Determined libc s env header payload := by
  rw [determined_iff libc (w := .close) qkdCloseRequest_exact (fun _ => hs)]
  · intro r₁ r₂ _ _ beyond₁ beyond₂
    rfl
  · intro tail beyond h
    simp only [servletOutcome,qkdServlet,hs] at h
    exact branch_decoded h

end Services

section OpenConnect

/-- The payload of an OPEN_CONNECT is complete, or its mimetype is too long to be answered. -/
def OpenConnectCovered (payload : Bytes) : Prop :=
  (∃ r rest, payload = qkdOpenConnectRequestToStream r ++ rest) ∨ MimetypeTooLong payload

lemma withLastByte_ne_nil (r : OpenConnectRequest) {b : UInt8} (hb : b≠0) :
    (r.withLastByte b).keyStreamId ≠ Uuid.nil := by
  intro h
  have hm : b ∈ (r.withLastByte b).keyStreamId.bytes := by simp [OpenConnectRequest.withLastByte]
  rw [h] at hm
  exact hb (List.eq_of_mem_replicate hm)

/-- Without its last byte, an identifier can be completed to two that are echoed. -/
lemma openConnect_covered [OpenSsl] {s : Server σ} {env : Env} {payload : Bytes}
    (hpayload : payload.length < 2^32)
    (h : ∀ r₁ r₂, Readable payload (.openConnect r₁) → Readable payload (.openConnect r₂) →
      ∀ beyond₁ beyond₂, framed (serve libc s (.openConnect r₁,env.withBeyond beyond₁)).1 =
        framed (serve libc s (.openConnect r₂,env.withBeyond beyond₂)).1) :
    OpenConnectCovered payload := by
  by_contra hn
  rw [OpenConnectCovered,not_or] at hn
  obtain ⟨r,k,hk,hr⟩ := openConnectRequest_completion hn.1
  have hmime : r.qos.metadataMimetype.chars.length ≤ 255 := by
    by_contra hlong
    exact hn.2 (tooLong_of_completion hr (by omega))
  have hread (b : UInt8) : Readable payload (.openConnect (r.withLastByte b)) := by
    have hb := withLastByte_toStream hr b
    refine readable_of_extends ⟨_,hb.symm⟩ ?_
    rw [Request.toStream,hb]
    simp only [List.length_append,List.length_replicate,List.length_singleton]
    omega
  let p (b : UInt8) : OpenConnectResponse :=
    ⟨QkdStatusCode.successful.code,r.qos,(r.withLastByte b).keyStreamId⟩
  have hserve (b : UInt8) (hb : b≠0) :
      (serve libc s (.openConnect (r.withLastByte b),env.withBeyond env.beyondMetadata)).1 =
        .openConnect (p b) := by
    rw [serve_supplied libc (withLastByte_ne_nil r hb)]
    rfl
  obtain ⟨f,hf⟩ := framed_openConnect_isSome (p := p 1) hmime
  have he := h _ _ (hread 1) (hread 2) env.beyondMetadata env.beyondMetadata
  rw [hserve 1 (by decide),hserve 2 (by decide)] at he
  have hp : p 1 = p 2 := framed_openConnect_inj hf (he ▸ hf)
  have hk := congrArg (fun p : OpenConnectResponse => p.keyStreamId.bytes) hp
  exact absurd (List.append_inj' hk rfl).2 (by decide)

/-- A mimetype that is too long leaves no frame to send. -/
lemma framed_none_of_tooLong [OpenSsl] {s : Server σ} {env : Env} {payload : Bytes}
    (hpayload : payload.length < 2^32) (hlong : MimetypeTooLong payload) {r : OpenConnectRequest}
    (h : Readable payload (.openConnect r)) : framed (serve libc s (.openConnect r,env)).1 = none := by
  obtain ⟨tail,rest,hl,hr⟩ := h
  have hmime := mimetype_of_tooLong hlong hr
  have hlt : r.qos.metadataMimetype.chars.length+1 < 2^64 := by
    have hlen := congrArg List.length hr
    simp only [Request.toStream,List.length_append,qkdOpenConnectRequestToStream_length] at hlen
    omega
  obtain ⟨k,hk⟩ := serve_openConnect libc s r env
  rw [hk,framed,Response.frame,openConnectResponseFrame_none hmime hlt]
  rfl

lemma openConnect_determined [OpenSsl] {s : Server σ} {env : Env} {payload : Bytes}
    (hpayload : payload.length < 2^32) (h : OpenConnectCovered payload) (r₁ r₂ : OpenConnectRequest)
    (h₁ : Readable payload (.openConnect r₁)) (h₂ : Readable payload (.openConnect r₂))
    (beyond₁ beyond₂ : ℕ → UInt8) :
    framed (serve libc s (.openConnect r₁,env.withBeyond beyond₁)).1 =
      framed (serve libc s (.openConnect r₂,env.withBeyond beyond₂)).1 := by
  rcases h with ⟨r,rest,rfl⟩ | hlong
  · obtain ⟨tail₁,rest₁,hl₁,hr₁⟩ := h₁
    obtain ⟨tail₂,rest₂,hl₂,hr₂⟩ := h₂
    rw [List.append_assoc] at hr₁ hr₂
    obtain ⟨rfl,-⟩ := qkdOpenConnectRequest_exact.append_inj hr₁
    obtain ⟨rfl,-⟩ := qkdOpenConnectRequest_exact.append_inj hr₂
    rfl
  · rw [framed_none_of_tooLong libc hpayload hlong h₁,framed_none_of_tooLong libc hpayload hlong h₂]

end OpenConnect

end EtsiQkd004
