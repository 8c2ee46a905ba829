import Mathlib.Data.List.TakeWhile
import ProofRelay.Config.Basic
import ProofRelay.Payload
import ProofRelay.Proofs.Json.Record
import ProofRelay.Response

/-!
The JSON forms read back what was written.  What a prover tells of its notary, a configuration and a payload are
read from their own texts, and from any other spelling of them: with the fields of the object in any order, fields
of other names among them, blanks between the tokens, and characters escaped or not.
-/

namespace ProofRelay

open Json

/-! ## Fields in any order -/

theorem Json.lookup_of_mem {fields : Fields} (hnodup : (fields.map Prod.fst).Nodup) {name : String} {f : Field}
    (hmem : (name, f) ∈ fields) : fields.lookup name = some f := by
  induction fields with
  | nil => cases hmem
  | cons entry fields ih =>
    obtain ⟨habsent, hnodup⟩ := List.nodup_cons.mp hnodup
    rw [List.lookup_cons]
    rcases List.mem_cons.mp hmem with rfl | hmem
    · rw [beq_self_eq_true]
    · have hne : name ≠ entry.1 := fun h => habsent (h ▸ List.mem_map_of_mem hmem)
      rw [beq_false_of_ne hne]
      exact ih hnodup hmem

theorem NotaryInfo.nodup_fields (i : NotaryInfo) : (i.fields.map Prod.fst).Nodup := by
  show ["version", "publicKey", "gitCommitHash", "gitCommitTimestamp"].Nodup
  decide

theorem Config.nodup_fields (c : Config) : (c.fields.map Prod.fst).Nodup := by
  show ["prover_url", "throw_on_error", "proof_timeout_ms", "gate_timeout_ms"].Nodup
  decide

/-- The order of the fields does not matter to what a prover tells of its notary. -/
theorem NotaryInfo.ofFields?_of_perm {i : NotaryInfo} {fields : Fields} (h : fields.Perm i.fields) :
    ofFields? fields = some i := by
  have hnodup := (h.map Prod.fst).nodup_iff.mpr i.nodup_fields
  have hlookup : ∀ entry ∈ i.fields, fields.lookup entry.1 = some entry.2 := fun entry hentry =>
    lookup_of_mem hnodup (h.mem_iff.mpr hentry)
  simp only [NotaryInfo.fields, List.forall_mem_cons] at hlookup
  obtain ⟨hversion, hkey, hhash, htimestamp, -⟩ := hlookup
  simp only [ofFields?, hversion, hkey, hhash, htimestamp]
  rfl

/-- The order of the fields does not matter to a configuration, since each sets a part of its own. -/
theorem Config.fill?_of_perm {c : Config} {fields : Fields} (h : fields.Perm c.fields) :
    (Draft.ofFields fields).fill? = some c := by
  have hfields : Draft.ofFields fields = Draft.ofFields c.fields := by
    refine (List.Perm.foldl_eq' h.symm ?_ ({} : Draft)).symm
    simp only [Config.fields, List.forall_mem_cons]
    simp
  rw [hfields]
  rfl

/-! ## Whole texts -/

theorem Json.document_of_read {α : Type} {read : Reader α} {bs ws : Bytes} {x : α} (hws : AreBlanks ws)
    (h : read (bs ++ ws) = .ok (x, ws)) : document read (bs ++ ws) = .ok x := by
  have hblanks : skipBlanks ws = [] := List.dropWhile_eq_nil_iff.mpr hws
  rw [document, h]
  simp [bind, Except.bind, hblanks]

/-- **What a prover tells of its notary** is read from any object that carries it. -/
theorem NotaryInfo.document_of_isRecord {i : NotaryInfo} {fields : Fields} {bs ws : Bytes}
    (hfields : fields.Perm i.fields) (hbs : IsRecord shape fields bs) (hws : AreBlanks ws) :
    document reader (bs ++ ws) = .ok i := by
  have hnodup := (hfields.map Prod.fst).nodup_iff.mpr i.nodup_fields
  refine document_of_read hws ?_
  rw [reader, read_of_isRecord hbs hnodup]
  simp only [bind, Except.bind]
  rw [ofFields?_of_perm hfields]

/-- **A configuration** is read from any object that carries it. -/
theorem Config.parse_of_isRecord {c : Config} {fields : Fields} {bs ws : Bytes} (hfields : fields.Perm c.fields)
    (hbs : IsRecord shape fields bs) (hws : AreBlanks ws) : parse (bs ++ ws) = .ok c := by
  have hnodup := (hfields.map Prod.fst).nodup_iff.mpr c.nodup_fields
  refine document_of_read hws ?_
  rw [reader, read_of_isRecord hbs hnodup]
  simp only [bind, Except.bind]
  rw [fill?_of_perm hfields]

/-- **A payload** is read from any spelling of it. -/
theorem Payload.parse_of_writes {p : Payload} {ws bs ws' : Bytes} (hws : AreBlanks ws)
    (hbs : Writes p.raw.toList bs) (hws' : AreBlanks ws') :
    parse (ws ++ quoteByte :: (bs ++ [quoteByte]) ++ ws') = .ok p := by
  refine document_of_read hws' ?_
  rw [List.append_assoc, List.cons_append, List.append_assoc, List.singleton_append, readText_append hws hbs]
  rfl

theorem NotaryInfo.lookup_shape (i : NotaryInfo) : ∀ entry ∈ i.fields, shape.lookup entry.1 = some entry.2.kind := by
  simp only [NotaryInfo.fields, List.forall_mem_cons, Field.kind]
  exact ⟨by decide +kernel, by decide +kernel, by decide +kernel, by decide +kernel, List.forall_mem_nil _⟩

theorem Config.lookup_shape (c : Config) : ∀ entry ∈ c.fields, shape.lookup entry.1 = some entry.2.kind := by
  simp only [Config.fields, List.forall_mem_cons, Field.kind]
  exact ⟨by decide +kernel, by decide +kernel, by decide +kernel, by decide +kernel, List.forall_mem_nil _⟩

/-- What a prover tells of its notary is asked for at its own path, without headers or a body, and a transport that
fails is what the client is told. -/
theorem NotaryInfo.fetch_of_parse? {config : Config} {uri : Http.Uri}
    (h : Http.Uri.parse? (config.base ++ "/notaryinfo") = some uri)
    (send : Http.Request → Except ClientError Http.Response) :
    fetch (config.endpoint .notaryInfo) send = (send ⟨.get, uri, .empty, []⟩).bind ofResponse := by
  have hrequest : request (config.endpoint .notaryInfo) = .ok ⟨.get, uri, .empty, []⟩ := by
    rw [request, Config.endpoint, ProverPath.text, h]
  rw [fetch, hrequest]
  rfl

/-- **The JSON forms read back what was written.**  What a prover tells of its notary with a success status is
what was written, whatever its texts; so are a configuration and a payload.  An object may carry the fields in any
order, among fields of other names that hold any value.  What a prover tells of its notary is asked for at its own
path, and a client that cannot ask, or whose transport fails, is told so. -/
theorem json_forms_read_back :
    (∀ (i : NotaryInfo) (r : Http.Response), r.status.isSuccess = true → r.body = Utf8.encode i.write →
      NotaryInfo.ofResponse r = .ok i) ∧
    (∀ c : Config, Config.parse (Utf8.encode c.write) = .ok c) ∧
    (∀ p : Payload, Payload.parse (Utf8.encode p.write) = .ok p) ∧
    (∀ (i : NotaryInfo) (r : Http.Response) (fields : Fields) (bs ws : Bytes), r.status.isSuccess = true →
      fields.Perm i.fields → IsRecord NotaryInfo.shape fields bs → AreBlanks ws → r.body = bs ++ ws →
      NotaryInfo.ofResponse r = .ok i) ∧
    (∀ (c : Config) (fields : Fields) (bs ws : Bytes), fields.Perm c.fields → IsRecord Config.shape fields bs →
      AreBlanks ws → Config.parse (bs ++ ws) = .ok c) ∧
    (∀ (p : Payload) (ws bs ws' : Bytes), AreBlanks ws → Writes p.raw.toList bs → AreBlanks ws' →
      Payload.parse (ws ++ quoteByte :: (bs ++ [quoteByte]) ++ ws') = .ok p) ∧
    ∀ (config : Config) (send : Http.Request → Except ClientError Http.Response),
      let asked := NotaryInfo.fetch (config.endpoint .notaryInfo) send
      (Http.Uri.parse? (config.base ++ "/notaryinfo") = none → asked = .error ⟨.configuration, some .uri⟩) ∧
      ∀ uri, Http.Uri.parse? (config.base ++ "/notaryinfo") = some uri →
        (∀ r, send ⟨.get, uri, .empty, []⟩ = .ok r → asked = NotaryInfo.ofResponse r) ∧
        ∀ error, send ⟨.get, uri, .empty, []⟩ = .error error → asked = .error error := by
  have hnotary : ∀ (i : NotaryInfo) (r : Http.Response) (fields : Fields) (bs ws : Bytes),
      r.status.isSuccess = true → fields.Perm i.fields → IsRecord NotaryInfo.shape fields bs → AreBlanks ws →
      r.body = bs ++ ws → NotaryInfo.ofResponse r = .ok i := by
    intro i r fields bs ws hstatus hfields hbs hws hbody
    rw [NotaryInfo.ofResponse, if_pos hstatus, Http.Response.json, hbody,
      NotaryInfo.document_of_isRecord hfields hbs hws]
    rfl
  refine ⟨fun i r hstatus hbody => ?_, fun c => ?_, fun p => ?_, hnotary,
    fun c fields bs ws hfields hbs hws => Config.parse_of_isRecord hfields hbs hws,
    fun p ws bs ws' hws hbs hws' => Payload.parse_of_writes hws hbs hws',
    fun config send => ⟨fun hnone => ?_, fun uri huri => ⟨fun r hr => ?_, fun error herror => ?_⟩⟩⟩
  · refine hnotary i r i.fields _ [] hstatus (.refl _)
      (isRecord_writeFields (List.cons_ne_nil _ _) i.lookup_shape) .nil ?_
    rw [hbody, List.append_nil]
    rfl
  · have h := Config.parse_of_isRecord (.refl _) (isRecord_writeFields (List.cons_ne_nil _ _) c.lookup_shape) .nil
    rwa [List.append_nil] at h
  · obtain ⟨bs, hbs, hwrite⟩ := exists_encode_writeText p.raw
    have h := Payload.parse_of_writes .nil hbs .nil
    rw [Payload.write, hwrite]
    rwa [List.nil_append, List.append_nil] at h
  · rw [NotaryInfo.fetch, NotaryInfo.request, Config.endpoint, ProverPath.text, hnone]
    rfl
  · rw [NotaryInfo.fetch_of_parse? huri, hr]
    rfl
  · rw [NotaryInfo.fetch_of_parse? huri, herror]
    rfl

/-- A field of another name stands first, the fields in reverse, the timeouts are the greatest and a small one, and
a character of the payload is escaped. -/
theorem json_forms_read_back_of_added_field :
    Config.parse (Utf8.encode ("\x7b\"note\":[null],\"gate_timeout_ms\":5,\"proof_timeout_ms\":18446744073709551615," ++
      "\"throw_on_error\":true,\"prover_url\":\"http://p\"\x7d")) = .ok ⟨"http://p", true, 18446744073709551615, 5⟩ ∧
    NotaryInfo.ofResponse ⟨.ok, .empty, Utf8.encode (NotaryInfo.write ⟨"1", "key\n", "", "é"⟩)⟩ =
      .ok ⟨"1", "key\n", "", "é"⟩ ∧
    NotaryInfo.ofResponse ⟨.ok, .empty, Utf8.encode (("\x7b\"note\":[null],\"gitCommitTimestamp\":\"é\"," ++
      "\"gitCommitHash\":\"\",\"publicKey\":\"key\\n\",\"version\":\"1\"\x7d"))⟩ = .ok ⟨"1", "key\n", "", "é"⟩ ∧
    Payload.parse (Utf8.encode "\"\\u007cproof\"") = .ok ⟨"|proof"⟩ ∧
    NotaryInfo.fetch (Config.endpoint ⟨"http://p/", true, 1, 5⟩ .notaryInfo) (fun _ => .error ⟨.http, some .network⟩) =
      .error ⟨.http, some .network⟩ := by
  obtain ⟨hwritten, -, -, hnotary, hconfig, hpayload, hasked⟩ := json_forms_read_back
  have hnote : IsValue (Utf8.encode "[null]") := by
    have h : IsValue (Frame.list.opening :: ([] ++ Utf8.encode "null" ++ [] ++ [Frame.list.closing])) :=
      .filled (.last .nil (.item .null) .nil)
    have heq : Utf8.encode "[null]" =
        Frame.list.opening :: ([] ++ Utf8.encode "null" ++ [] ++ [Frame.list.closing]) := by decide +kernel
    rwa [heq]
  have hrecord : ∀ (shape : Shape) (fields : Fields), shape.lookup "note" = none →
      (∀ entry ∈ fields, shape.lookup entry.1 = some entry.2.kind) →
      IsRecord shape fields.reverse
        (0x7B :: (Member.written ⟨"note", Utf8.encode "[null]"⟩ ++ writtenBehind (members fields.reverse))) :=
    fun shape fields hnone hfields =>
      have hreversed := carries_members fun entry hentry => hfields entry (List.mem_reverse.mp hentry)
      ⟨[], _, _, .nil, .other hnone hnote hreversed, writesMembers_written _ _, rfl⟩
  refine ⟨?_, hwritten _ _ rfl rfl, ?_, ?_, ?_⟩
  · have h := hconfig ⟨"http://p", true, 18446744073709551615, 5⟩ _ _ [] (List.reverse_perm _)
      (hrecord Config.shape _ (by decide +kernel) (Config.lookup_shape _)) .nil
    refine (congrArg Config.parse ?_).trans h
    decide +kernel
  · refine hnotary ⟨"1", "key\n", "", "é"⟩ _ _ _ [] rfl (List.reverse_perm _)
      (hrecord NotaryInfo.shape _ (by decide +kernel) (NotaryInfo.lookup_shape _)) .nil ?_
    decide +kernel
  · have hmark : WritesChar '|' [0x5C, 0x75, 0x30, 0x30, 0x37, 0x63] := .unit (by decide)
    have h := hpayload ⟨"|proof"⟩ [] _ [] .nil (.cons hmark (writes_escaped "proof".toList)) .nil
    refine (congrArg Payload.parse ?_).trans h
    decide +kernel
  · exact ((hasked _ _).2 ⟨some .http, some "p", "/notaryinfo", none⟩ (by decide +kernel)).2 _ rfl

end ProofRelay
