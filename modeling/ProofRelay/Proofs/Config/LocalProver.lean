import ProofRelay.Proofs.Config.Endpoints

/-!
Falling back to a local prover.  An environment that does not say where the prover is gives the configuration of
a local one, in which nothing else is set, whatever the environment says of the rest.  So the fallback is not
the environment with the address of the local prover put into it (`Environment.withLocalProver`), in which the
other settings count (`ofEnvironment_withLocalProver`):

    the fallback and the environment with the address of the local prover give the same  ↔  the environment says
      where the prover is, or each of its other settings is what stands if nothing is set     (local_fallback_iff)
-/

namespace ProofRelay.Config

open Environment

/-! ## The environment with the local prover -/

namespace Environment

/-- Whether the variables say where the prover is. -/
def SaysProver (vars : Variables) : Prop := (vars.lookup proverUrlVariable).isSome = true

instance (vars : Variables) : Decidable (SaysProver vars) := by unfold SaysProver; infer_instance

/-- The variables, and the address of the local prover if they do not say where the prover is. -/
def withLocalProver (vars : Variables) : Variables :=
  if SaysProver vars then vars else vars ++ [(proverUrlVariable, localProverUrl)]

/-- The draft of the fields other than the address of the prover. -/
def otherSettings (vars : Variables) : Except ClientError Draft := do
  let throwOnError ← converted Setting.flag? (setting? vars "throw_on_error")
  let proofTimeoutMs ← converted Setting.count? (setting? vars "proof_timeout_ms")
  let gateTimeoutMs ← converted Setting.count? (setting? vars "gate_timeout_ms")
  return { throwOnError, proofTimeoutMs, gateTimeoutMs }

/-- Whether a setting is absent, or gives what stands without it. -/
def Stands {α : Type} (convert : Setting → Option α) (standing : α) (s : Option Setting) : Prop :=
  ∀ x, s = some x → convert x = some standing

/-- Whether the settings other than the address of the prover give what stands without them. -/
structure OthersStand (vars : Variables) : Prop where
  throwOnError : Stands Setting.flag? false (setting? vars "throw_on_error")
  proofTimeoutMs : Stands Setting.count? defaultProofTimeoutMs (setting? vars "proof_timeout_ms")
  gateTimeoutMs : Stands Setting.count? defaultGateTimeoutMs (setting? vars "gate_timeout_ms")

theorem stands_iff {α : Type} {convert : Setting → Option α} {standing : α} {s : Option Setting} :
    Stands convert standing s ↔ ∃ o, converted convert s = .ok o ∧ o.getD standing = standing := by
  cases s with
  | none => exact iff_of_true (by rintro x ⟨⟩) ⟨none, rfl, rfl⟩
  | some x =>
    cases hx : convert x with
    | none =>
      refine iff_of_false (fun h => ?_) ?_
      · rw [h x rfl] at hx
        cases hx
      · rintro ⟨o, ho, -⟩
        simp [converted, hx] at ho
    | some y =>
      have hconverted : converted convert (some x) = .ok (some y) := by simp [converted, hx]
      rw [hconverted]
      constructor
      · intro h
        have hy := h x rfl
        rw [hx] at hy
        exact ⟨some y, rfl, Option.some.inj hy⟩
      · rintro ⟨o, ho, hstanding⟩ x' hx'
        cases ho
        cases hx'
        rw [hx]
        exact congrArg some hstanding

/-- The last variable sets its own field and no other. -/
theorem setting?_concat (vars : Variables) {name : String} {path : List Char} (hpath : path? name = some path)
    (value : String) {field : String} (hfield : field.toList = path ∨ ¬field.toList <+: path) :
    setting? (vars ++ [(name, value)]) field =
      if field.toList = path then some (.ofText value) else setting? vars field := by
  simp only [setting?, List.foldl_append, List.foldl_cons, List.foldl_nil, hpath]
  by_cases heq : field.toList = path
  · rw [if_pos heq, if_pos heq.symm]
  · have hno : field.toList.isPrefixOf path = false :=
      Bool.eq_false_iff.mpr fun h => (hfield.resolve_left heq) (List.isPrefixOf_iff_prefix.mp h)
    rw [if_neg heq, if_neg (Ne.symm heq), hno]
    rfl

theorem path?_proverUrlVariable : path? proverUrlVariable = some "prover_url".toList := by decide +kernel

theorem setting?_localProver (vars : Variables) {field : String} (h : ¬field.toList <+: "prover_url".toList) :
    setting? (vars ++ [(proverUrlVariable, localProverUrl)]) field = setting? vars field := by
  rw [setting?_concat vars path?_proverUrlVariable _ (.inr h), if_neg]
  intro heq
  exact h (heq ▸ List.prefix_refl _)

theorem draft_localProver (vars : Variables) :
    draft (vars ++ [(proverUrlVariable, localProverUrl)]) =
      (otherSettings vars).map fun d => { d with proverUrl := some localProverUrl } := by
  have hurl : setting? (vars ++ [(proverUrlVariable, localProverUrl)]) "prover_url" =
      some (.text localProverUrl) := by
    have htext : Setting.ofText localProverUrl = .text localProverUrl := by decide +kernel
    rw [setting?_concat vars path?_proverUrlVariable _ (.inl rfl), if_pos rfl, htext]
  have hconverted : converted Setting.text? (some (.text localProverUrl)) = .ok (some localProverUrl) := rfl
  unfold draft otherSettings
  rw [hurl, hconverted, setting?_localProver vars (by decide), setting?_localProver vars (by decide),
    setting?_localProver vars (by decide)]
  generalize converted Setting.flag? (setting? vars "throw_on_error") = throwOnError
  generalize converted Setting.count? (setting? vars "proof_timeout_ms") = proofTimeoutMs
  generalize converted Setting.count? (setting? vars "gate_timeout_ms") = gateTimeoutMs
  cases throwOnError <;> cases proofTimeoutMs <;> cases gateTimeoutMs <;> rfl

end Environment

/-! ## The fallback -/

/-- The configuration of a local prover with nothing else set. -/
def localProver : Config := ⟨localProverUrl, false, defaultProofTimeoutMs, defaultGateTimeoutMs⟩

/-- The configuration of a local prover with the settings of a draft. -/
def Draft.atLocalProver (d : Draft) : Config where
  proverUrl := localProverUrl
  throwOnError := d.throwOnError.getD false
  proofTimeoutMs := d.proofTimeoutMs.getD defaultProofTimeoutMs
  gateTimeoutMs := d.gateTimeoutMs.getD defaultGateTimeoutMs

/-- Whether two results are one configuration, or errors of one kind. -/
def SameResult : Except ClientError Config → Except ClientError Config → Prop
  | .ok c, .ok d => c = d
  | .error e, .error f => e.kind = f.kind
  | _, _ => False

theorem SameResult.refl (result : Except ClientError Config) : SameResult result result := by
  cases result <;> exact rfl

variable {vars : Variables}

/-- The fallback reads nothing of the environment. -/
theorem ofEnvironmentOrLocal_of_not_saysProver (h : ¬SaysProver vars) :
    ofEnvironmentOrLocal vars = .ok localProver := by
  have hbuild : Draft.build { proverUrl := some localProverUrl } = .ok localProver := by decide +kernel
  exact (if_neg h).trans hbuild

/-- With the address of the local prover in the environment, its other settings count. -/
theorem ofEnvironment_withLocalProver (h : ¬SaysProver vars) :
    ofEnvironment (withLocalProver vars) = (otherSettings vars).map Draft.atLocalProver := by
  have hcheck : checkUrl localProverUrl = .ok () := checkUrl_eq_ok_iff.mpr (by decide +kernel)
  rw [withLocalProver, if_neg h, ofEnvironment, draft_localProver]
  cases otherSettings vars with
  | error => rfl
  | ok d =>
    simp only [Except.map, bind, Except.bind, Draft.fill?, Option.map_some, hcheck]
    rfl

/-- The other settings give what stands without them just if the whole is the local prover with nothing set. -/
theorem othersStand_iff : OthersStand vars ↔ (otherSettings vars).map Draft.atLocalProver = .ok localProver := by
  constructor
  · rintro ⟨hthrow, hproof, hgate⟩
    obtain ⟨throwOnError, hthrow, hthrowStands⟩ := stands_iff.mp hthrow
    obtain ⟨proofTimeoutMs, hproof, hproofStands⟩ := stands_iff.mp hproof
    obtain ⟨gateTimeoutMs, hgate, hgateStands⟩ := stands_iff.mp hgate
    rw [otherSettings, hthrow, hproof, hgate]
    show Except.ok (Draft.atLocalProver { throwOnError, proofTimeoutMs, gateTimeoutMs }) = _
    rw [Draft.atLocalProver, hthrowStands, hproofStands, hgateStands]
    rfl
  · intro h
    cases hthrow : converted Setting.flag? (setting? vars "throw_on_error") with
    | error => simp [otherSettings, hthrow, bind, Except.bind, Except.map] at h
    | ok throwOnError =>
    cases hproof : converted Setting.count? (setting? vars "proof_timeout_ms") with
    | error => simp [otherSettings, hthrow, hproof, bind, Except.bind, Except.map] at h
    | ok proofTimeoutMs =>
    cases hgate : converted Setting.count? (setting? vars "gate_timeout_ms") with
    | error => simp [otherSettings, hthrow, hproof, hgate, bind, Except.bind, Except.map] at h
    | ok gateTimeoutMs =>
    rw [otherSettings, hthrow, hproof, hgate] at h
    have hsame : Draft.atLocalProver { throwOnError, proofTimeoutMs, gateTimeoutMs } = localProver :=
      Except.ok.inj h
    rw [Draft.atLocalProver, localProver, Config.mk.injEq] at hsame
    exact ⟨stands_iff.mpr ⟨throwOnError, hthrow, hsame.2.1⟩, stands_iff.mpr ⟨proofTimeoutMs, hproof, hsame.2.2.1⟩,
      stands_iff.mpr ⟨gateTimeoutMs, hgate, hsame.2.2.2⟩⟩

/-- **Falling back to a local prover.**

* An environment that says where the prover is gives its own configuration, and any other one that of a local
  prover with nothing else set.
* With the address of the local prover put into it, an environment gives the configuration of the local prover
  with its other settings, or fails if one of them cannot be converted.
* The two are the same just if the environment says where the prover is, or each of its other settings gives
  what stands without it. -/
theorem local_fallback_iff (vars : Variables) :
    (ofEnvironmentOrLocal vars = if SaysProver vars then ofEnvironment vars else .ok localProver) ∧
    (ofEnvironment (withLocalProver vars) =
      if SaysProver vars then ofEnvironment vars else (otherSettings vars).map Draft.atLocalProver) ∧
    (SameResult (ofEnvironmentOrLocal vars) (ofEnvironment (withLocalProver vars)) ↔
      SaysProver vars ∨ OthersStand vars) := by
  by_cases h : SaysProver vars
  · have hleft : ofEnvironmentOrLocal vars = ofEnvironment vars := if_pos h
    have hright : withLocalProver vars = vars := if_pos h
    rw [if_pos h, if_pos h, hleft, hright]
    exact ⟨rfl, rfl, iff_of_true (.refl _) (.inl h)⟩
  · have hleft := ofEnvironmentOrLocal_of_not_saysProver h
    have hright := ofEnvironment_withLocalProver h
    rw [if_neg h, if_neg h]
    refine ⟨hleft, hright, ?_⟩
    rw [hleft, hright, or_iff_right h, othersStand_iff]
    cases (otherSettings vars).map Draft.atLocalProver with
    | error error => exact iff_of_false not_false (by rintro ⟨⟩)
    | ok c => exact ⟨fun hsame => congrArg _ hsame.symm, fun hsame => (Except.ok.inj hsame).symm⟩

/-- Without the address of the prover, the wish to fail without a proof is not read, and a timeout that is no number
goes unnoticed. -/
theorem fallback_reads_nothing_else :
    let strict : Variables := [("VERITY_THROW_ON_ERROR", "true")]
    let mistyped : Variables := [("VERITY_PROOF_TIMEOUT_MS", "soon")]
    ofEnvironmentOrLocal strict = .ok localProver ∧
      ofEnvironment (withLocalProver strict) = .ok { localProver with throwOnError := true } ∧
      ofEnvironmentOrLocal mistyped = .ok localProver ∧
      ofEnvironment (withLocalProver mistyped) = .error failure := by
  decide +kernel

end ProofRelay.Config
