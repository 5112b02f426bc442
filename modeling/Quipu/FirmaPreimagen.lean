import Quipu.Firma

namespace Quipu.Pqsign

variable {es : Esquemas}

theorem VerifyingKey.length_toBytes (vk : VerifyingKey) : vk.toBytes.length = 32 + 2592 := by
  rw [VerifyingKey.toBytes, List.length_append, vk.ed.toList_length, vk.ml.toList_length]

theorem TripleVerifyingKey.length_toBytes (vk : TripleVerifyingKey) :
    vk.toBytes.length = 32 + 2592 + 64 := by
  rw [TripleVerifyingKey.toBytes, List.length_append, List.length_append, vk.ed.toList_length,
    vk.ml.toList_length, vk.slh.toList_length]

theorem VerifyingKey.toBytes_inj {vk vk' : VerifyingKey} (h : vk.toBytes = vk'.toBytes) :
    vk = vk' := by
  obtain ⟨hed, hml⟩ := List.append_inj h (by rw [vk.ed.toList_length, vk'.ed.toList_length])
  exact VerifyingKey.ext (Arr.ext hed) (Arr.ext hml)

theorem TripleVerifyingKey.toBytes_inj {vk vk' : TripleVerifyingKey}
    (h : vk.toBytes = vk'.toBytes) : vk = vk' := by
  obtain ⟨h, hslh⟩ := List.append_inj' h (by rw [vk.slh.toList_length, vk'.slh.toList_length])
  obtain ⟨hed, hml⟩ := List.append_inj h (by rw [vk.ed.toList_length, vk'.ed.toList_length])
  exact TripleVerifyingKey.ext (Arr.ext hed) (Arr.ext hml) (Arr.ext hslh)

/-- Under one label and keys of one length the preimage fixes the key and the message. -/
theorem preimageCon_inj {context v v' m m' : List UInt8} (hlen : v.length = v'.length)
    (h : preimageCon context v m = preimageCon context v' m') : v = v' ∧ m = m' := by
  rw [preimageCon, preimageCon, List.append_assoc, List.append_assoc] at h
  exact List.append_inj (List.append_cancel_left h) hlen

theorem buildPreimage_inj {vk vk' : VerifyingKey} {m m' : List UInt8}
    (h : buildPreimage vk.toBytes m = buildPreimage vk'.toBytes m') : vk = vk' ∧ m = m' := by
  obtain ⟨hv, hm⟩ := preimageCon_inj (by rw [vk.length_toBytes, vk'.length_toBytes]) h
  exact ⟨VerifyingKey.toBytes_inj hv, hm⟩

theorem buildTriplePreimage_inj {vk vk' : TripleVerifyingKey} {m m' : List UInt8}
    (h : buildTriplePreimage vk.toBytes m = buildTriplePreimage vk'.toBytes m') :
    vk = vk' ∧ m = m' := by
  obtain ⟨hv, hm⟩ := preimageCon_inj (by rw [vk.length_toBytes, vk'.length_toBytes]) h
  exact ⟨TripleVerifyingKey.toBytes_inj hv, hm⟩

theorem cnsa_preimagen_inj {vk vk' : Cnsa.Firma.VerifyingKey} {m m' : List UInt8}
    (h : Cnsa.Firma.preimagen vk.aBytes m = Cnsa.Firma.preimagen vk'.aBytes m') :
    vk = vk' ∧ m = m' := by
  have hlen : vk.aBytes.length = vk'.aBytes.length := by
    rw [Cnsa.Firma.VerifyingKey.aBytes, Cnsa.Firma.VerifyingKey.aBytes, vk.ml.toList_length,
      vk'.ml.toList_length]
  unfold Cnsa.Firma.preimagen at h
  rw [hlen, List.append_assoc, List.append_assoc _ vk'.aBytes] at h
  obtain ⟨hv, hm⟩ := List.append_inj (List.append_cancel_left h) hlen
  exact ⟨Cnsa.Firma.VerifyingKey.ext (Arr.ext hv), hm⟩

/-- Preimages whose labels differ at some byte differ. -/
theorem ne_of_etiquetas {a b x y : List UInt8} {i : Nat} (ha : i < a.length) (hb : i < b.length)
    (hab : a[i]? ≠ b[i]?) : a ++ x ≠ b ++ y := by
  intro h
  have hi := congrArg (fun l => l[i]?) h
  simp only [List.getElem?_append_left ha, List.getElem?_append_left hb] at hi
  exact hab hi

theorem hibrida_ne_triple (v v' m m' : List UInt8) :
    buildPreimage v m ≠ buildTriplePreimage v' m' := by
  rw [buildPreimage, buildTriplePreimage, preimageCon, preimageCon, List.append_assoc,
    List.append_assoc]
  exact ne_of_etiquetas (i := 7) (by decide) (by decide) (by decide)

theorem hibrida_ne_cnsa (v v' m m' : List UInt8) :
    buildPreimage v m ≠ Cnsa.Firma.preimagen v' m' := by
  rw [buildPreimage, Cnsa.Firma.preimagen, preimageCon, List.append_assoc, List.append_assoc,
    List.append_assoc]
  exact ne_of_etiquetas (i := 5) (by decide) (by decide) (by decide)

theorem triple_ne_cnsa (v v' m m' : List UInt8) :
    buildTriplePreimage v m ≠ Cnsa.Firma.preimagen v' m' := by
  rw [buildTriplePreimage, Cnsa.Firma.preimagen, preimageCon, List.append_assoc,
    List.append_assoc, List.append_assoc]
  exact ne_of_etiquetas (i := 5) (by decide) (by decide) (by decide)

theorem aceptaBytes_eq_true {s v f : Nat} {e : Esquema s v f} {pk : Arr v} {p sig : List UInt8} :
    aceptaBytes e pk p sig = true ↔ ∃ a : Arr f, a.toList = sig ∧ e.acepta pk p a = true := by
  unfold aceptaBytes
  split
  next a h =>
    have ha := tryInto_eq_some.mp h
    constructor
    · exact fun hok => ⟨a, ha, hok⟩
    · rintro ⟨b, hb, hok⟩
      rwa [Arr.ext (ha.trans hb.symm)]
  next h =>
    constructor
    · intro hok
      cases hok
    · rintro ⟨a, ha, _⟩
      rw [tryInto_eq_some.mpr ha] at h
      cases h

theorem aceptaBytes_toList {s v f : Nat} (e : Esquema s v f) (pk : Arr v) (p : List UInt8)
    (a : Arr f) : aceptaBytes e pk p a.toList = e.acepta pk p a := by
  rw [aceptaBytes, tryInto_eq_some.mpr rfl]

/-- The verifier splits a signature where the signer joined it. -/
theorem verify_append (es : Esquemas) (vk : VerifyingKey) (m : List UInt8) (a : Arr 64)
    (b : Arr 4627) : vk.verify es m (a.toList ++ b.toList) =
      (es.ed.acepta vk.ed (buildPreimage vk.toBytes m) a &&
        es.ml.acepta vk.ml (buildPreimage vk.toBytes m) b) := by
  have hlen : ¬(a.toList ++ b.toList).length ≠ signatureLen := by
    rw [List.length_append, a.toList_length, b.toList_length]
    exact not_not.mpr rfl
  have ha : a.toList.length = ed25519SigLen := a.toList_length
  unfold VerifyingKey.verify
  rw [if_neg hlen]
  dsimp only
  rw [List.take_left' ha, List.drop_left' ha, aceptaBytes_toList, aceptaBytes_toList]

theorem verify_partes {vk : VerifyingKey} {m sig : List UInt8} (h : vk.verify es m sig = true) :
    aceptaBytes es.ed vk.ed (buildPreimage vk.toBytes m) (sig.take ed25519SigLen) = true ∧
      aceptaBytes es.ml vk.ml (buildPreimage vk.toBytes m) (sig.drop ed25519SigLen) = true := by
  unfold VerifyingKey.verify at h
  split at h
  next => cases h
  next => exact Bool.and_eq_true_iff.mp h

theorem triple_verify_append (es : Esquemas) (vk : TripleVerifyingKey) (m : List UInt8) (a : Arr 64)
    (b : Arr 4627) (c : Arr 29792) : vk.verify es m (a.toList ++ b.toList ++ c.toList) =
      (es.ed.acepta vk.ed (buildTriplePreimage vk.toBytes m) a &&
        es.ml.acepta vk.ml (buildTriplePreimage vk.toBytes m) b &&
        es.slh.acepta vk.slh (buildTriplePreimage vk.toBytes m) c) := by
  have hlen : ¬(a.toList ++ b.toList ++ c.toList).length ≠ tripleSignatureLen := by
    rw [List.length_append, List.length_append, a.toList_length, b.toList_length, c.toList_length]
    exact not_not.mpr rfl
  have ha : a.toList.length = ed25519SigLen := a.toList_length
  have hb : b.toList.length = mldsaSigLen := b.toList_length
  unfold TripleVerifyingKey.verify
  rw [if_neg hlen, List.append_assoc]
  dsimp only
  rw [List.take_left' ha, List.drop_left' ha, List.take_left' hb, List.drop_left' hb,
    aceptaBytes_toList, aceptaBytes_toList, aceptaBytes_toList]

theorem triple_verify_partes {vk : TripleVerifyingKey} {m sig : List UInt8}
    (h : vk.verify es m sig = true) :
    ∃ a b c, aceptaBytes es.ed vk.ed (buildTriplePreimage vk.toBytes m) a = true ∧
      aceptaBytes es.ml vk.ml (buildTriplePreimage vk.toBytes m) b = true ∧
      aceptaBytes es.slh vk.slh (buildTriplePreimage vk.toBytes m) c = true := by
  unfold TripleVerifyingKey.verify at h
  split at h
  next => cases h
  next =>
    obtain ⟨h, hslh⟩ := Bool.and_eq_true_iff.mp h
    obtain ⟨hed, hml⟩ := Bool.and_eq_true_iff.mp h
    exact ⟨_, _, _, hed, hml, hslh⟩

theorem verificar_toList (es : Esquemas) (vk : Cnsa.Firma.VerifyingKey) (m : List UInt8)
    (a : Arr 4627) : vk.verificar es m a.toList =
      es.ml.acepta vk.ml (Cnsa.Firma.preimagen vk.aBytes m) a := by
  have hlen : ¬a.toList.length ≠ Cnsa.Firma.signatureLen := not_not.mpr a.toList_length
  unfold Cnsa.Firma.VerifyingKey.verificar
  rw [if_neg hlen, aceptaBytes_toList]

theorem verificar_partes {vk : Cnsa.Firma.VerifyingKey} {m sig : List UInt8}
    (h : vk.verificar es m sig = true) :
    aceptaBytes es.ml vk.ml (Cnsa.Firma.preimagen vk.aBytes m) sig = true := by
  unfold Cnsa.Firma.VerifyingKey.verificar at h
  split at h
  next => cases h
  next => exact h

end Quipu.Pqsign
