import Quipu.PapelLoss
import Quipu.ShamirShares
import Quipu.SignedContainer

namespace Quipu

theorem ofBe_be_iff (n : Nat) : ofBe (be 4 n) = n ↔ n < 2 ^ 32 := by
  have hl := ofBe_lt (be 4 n)
  rw [length_be] at hl
  constructor
  · intro h
    omega
  · intro h
    exact ofBe_be h

theorem ofLe_le_iff (n : Nat) : ofLe (le 4 n) = n ↔ n < 2 ^ 32 := by
  rw [ofLe, le, List.reverse_reverse]
  exact ofBe_be_iff n

/-- A length cast to `u32` before it is written. -/
theorem ofBe_u32Be_iff (n : Nat) : ofBe (u32Be (UInt32.ofNat n)) = n ↔ n < 2 ^ 32 := by
  have hx : ofBe (u32Be (UInt32.ofNat n)) = n % 2 ^ 32 := by
    rw [u32Be, UInt32.toNat_ofNat']
    exact ofBe_be (Nat.mod_lt _ (by decide))
  rw [hx]
  constructor
  · intro h
    omega
  · intro h
    exact Nat.mod_eq_of_lt h

namespace Ecc

theorem largo_protect (rs : ReedSolomon) (data : List UInt8) (parity : UInt8) :
    ((protect rs data parity).drop 1).take 4 = le 4 data.length := by
  have hl := length_le 4 data.length
  rw [protect, ReedSolomon.encode, List.append_assoc, List.cons_append, List.drop_succ_cons,
    List.drop_zero]
  exact List.take_left' hl

/-- The blocks hold the data and, each of them, its parity. -/
theorem length_cuerpo (rs : ReedSolomon) {parity : Nat} (hp : parity ≤ 128)
    (data : List UInt8) :
    (cuerpo rs parity data).length =
      data.length + (chunks (255 - parity) data).length * parity := by
  have hbloques : ∀ bs : List (List UInt8),
      ((bs.map (rs.encode parity)).flatten).length = bs.flatten.length + bs.length * parity := by
    intro bs
    induction bs with
    | nil => rw [List.map_nil, List.length_nil, Nat.zero_mul]; rfl
    | cons b bs ih =>
      rw [List.map_cons, List.flatten_cons, List.length_append, ReedSolomon.length_encode, ih,
        List.flatten_cons, List.length_append, List.length_cons, Nat.succ_mul]
      omega
  rw [cuerpo, hbloques, flatten_chunks (by omega)]

theorem protect_iff {rs : ReedSolomon} (hrs : rs.Corrige) (data : List UInt8) (parity : UInt8) :
    (ofLe (((protect rs data parity).drop 1).take 4) = data.length ∧
      recover rs (protect rs data parity) = some data) ↔ data.length < 2 ^ 32 := by
  rw [largo_protect, ofLe_le_iff]
  constructor
  · exact And.left
  · intro hd
    refine ⟨hd, recover_of_errores hrs hd rfl ?_ fun j => ?_⟩
    · rw [errores_self]
      exact Nat.zero_le 5
    · rw [errores_self]
      exact Nat.zero_le _

end Ecc

namespace Papel

theorem largo_simbolo {total j : Nat} {xs t : List UInt8} (h : EsSimbolo total xs j t) :
    (t.drop 5).take 4 = be 4 xs.length := by
  obtain ⟨p, rfl, -⟩ := h
  simp [cabeceraDe, List.drop_append, List.drop_of_length_le]

theorem empaquetar_iff {rs : ReedSolomon} (hrs : rs.Corrige) {datos : List UInt8}
    {capacidad : Nat} {paridad : UInt8} {trozos : List (List UInt8)}
    (h : empaquetar rs datos capacidad paridad = .ok trozos) :
    ((∀ t ∈ trozos, ofBe ((t.drop 5).take 4) = (Ecc.protect rs datos paridad).length) ∧
      reensamblar rs trozos = .ok datos) ↔ (Ecc.protect rs datos paridad).length < 2 ^ 32 := by
  obtain ⟨simbolo, htr, ht, ht', hpar, hs⟩ := empaquetar_ok h
  constructor
  · rintro ⟨hl, -⟩
    have hm : simbolo 0 ∈ trozos := by
      rw [htr]
      exact List.mem_map_of_mem (List.mem_range.mpr ht)
    have h0 := hl _ hm
    rwa [largo_simbolo (hs 0 ht), ofBe_be_iff] at h0
  · intro hx
    constructor
    · intro t hm
      rw [htr] at hm
      obtain ⟨j, hj, rfl⟩ := List.mem_map.mp hm
      rwa [largo_simbolo (hs j (List.mem_range.mp hj)), ofBe_be_iff]
    · have hjs : ([] ++ List.range trozos.length).Perm (List.range trozos.length) :=
        List.Perm.refl _
      have hr := reensamblar_indices hrs ht ht' hpar hx hs hjs (Nat.zero_le _)
      rwa [← htr] at hr

end Papel

namespace Api

variable {dict : Dictionary}

theorem Firmado.largo_armar {formato : Firmado} (hmagic : formato.magic.length = 4)
    (data signature : List UInt8) :
    ((formato.armar data signature).drop 6).take 4 = u32Be (UInt32.ofNat data.length) := by
  have hl : (formato.magic ++ [formato.version] ++ [0]).length = 6 := by
    simp [hmagic]
  rw [Firmado.armar, List.append_assoc, List.append_assoc, List.drop_left' hl]
  exact List.take_left' (length_u32Be _)

theorem armarFirmado_iff {usizeMax : Nat} {verify : List UInt8 → List UInt8 → Bool}
    {data signature : List UInt8} {text : String}
    (htext : (armarFirmado data signature dict : Res DecodeError String) = .ok text)
    (hfirma : signature.length = Pqsign.signatureLen) (hver : verify data signature = true)
    (hcabe : signedPrefix + data.length + Pqsign.signatureLen ≤ usizeMax) :
    (∃ blob, (blobDe dict text : Res DecodeError (List UInt8)) = .ok blob ∧
      ofBe ((blob.drop 6).take 4) = data.length ∧
        decodeVerifiedEn usizeMax text verify dict = .ok data) ↔ data.length < 2 ^ 32 := by
  have hblob := blobDe_of_textoDe htext
  constructor
  · rintro ⟨blob, hb, hl, -⟩
    obtain rfl := Except.ok.inj (hblob.symm.trans hb)
    rwa [Firmado.largo_armar rfl, ofBe_u32Be_iff] at hl
  · intro hd
    refine ⟨_, hblob, ?_, leer_texto rfl htext hd hfirma hver hcabe⟩
    rwa [Firmado.largo_armar rfl, ofBe_u32Be_iff]

end Api

namespace Shamir

theorem Share.largo_toBytes (s : Share) :
    (s.toBytes.drop 6).take 4 = u32Be (UInt32.ofNat s.y.length) := by
  have hl : (magic ++ [s.threshold] ++ [s.index]).length = 6 := rfl
  rw [Share.toBytes, List.append_assoc, List.drop_left' hl]
  exact List.take_left' (length_u32Be _)

theorem Share.toBytes_iff (s : Share) :
    (ofBe ((s.toBytes.drop 6).take 4) = s.y.length ∧ Share.fromBytes s.toBytes = .ok s) ↔
      s.y.length < 2 ^ 32 := by
  rw [Share.largo_toBytes, ofBe_u32Be_iff]
  exact ⟨And.left, fun h => ⟨h, Share.fromBytes_toBytes h⟩⟩

end Shamir

/-- The four writers with a length of 32 bits: what they write is read back below 4 GiB only. -/
theorem longitudes_iff (rs : ReedSolomon) (hrs : rs.Corrige) :
    (∀ data parity, (ofLe (((Ecc.protect rs data parity).drop 1).take 4) = data.length ∧
      Ecc.recover rs (Ecc.protect rs data parity) = some data) ↔ data.length < 2 ^ 32) ∧
    (∀ datos capacidad paridad trozos, Papel.empaquetar rs datos capacidad paridad = .ok trozos →
      (((∀ t ∈ trozos, ofBe ((t.drop 5).take 4) = (Ecc.protect rs datos paridad).length) ∧
        Papel.reensamblar rs trozos = .ok datos) ↔
          (Ecc.protect rs datos paridad).length < 2 ^ 32)) ∧
    (∀ (dict : Dictionary) usizeMax verify data signature text,
      (Api.armarFirmado data signature dict : Res Api.DecodeError String) = .ok text →
        signature.length = Pqsign.signatureLen → verify data signature = true →
          Api.signedPrefix + data.length + Pqsign.signatureLen ≤ usizeMax →
            ((∃ blob, (Api.blobDe dict text : Res Api.DecodeError (List UInt8)) = .ok blob ∧
              ofBe ((blob.drop 6).take 4) = data.length ∧
                Api.decodeVerifiedEn usizeMax text verify dict = .ok data) ↔
                  data.length < 2 ^ 32)) ∧
    ∀ s : Shamir.Share, (ofBe ((s.toBytes.drop 6).take 4) = s.y.length ∧
      Shamir.Share.fromBytes s.toBytes = .ok s) ↔ s.y.length < 2 ^ 32 := by
  refine ⟨Ecc.protect_iff hrs, ?_, ?_, Shamir.Share.toBytes_iff⟩
  · intro datos capacidad paridad trozos h
    exact Papel.empaquetar_iff hrs h
  · intro dict usizeMax verify data signature text htext hfirma hver hcabe
    exact Api.armarFirmado_iff htext hfirma hver hcabe

/-- Shares, symbols and blobs of a few bytes. -/
theorem longitudes_iff_tres :
    ∃ rs : ReedSolomon, rs.Corrige ∧
      Ecc.recover rs (Ecc.protect rs [1, 2, 3] 4) = some [1, 2, 3] ∧
      (∃ trozos, Papel.empaquetar rs [1, 2, 3] 16 128 = .ok trozos ∧
        Papel.reensamblar rs trozos = .ok [1, 2, 3]) ∧
      (∃ text, (Api.armarFirmado [0, 7] (List.replicate Pqsign.signatureLen 5)
          Api.alfabetoAB : Res Api.DecodeError String) = .ok text ∧
        Api.decodeVerifiedEn 4294967295 text (fun _ _ => true)
          Api.alfabetoAB = .ok [0, 7]) ∧
      Shamir.Share.fromBytes (Shamir.Share.toBytes
        ⟨2, 1, List.replicate 20 5, by decide, by decide, by decide⟩) =
          .ok ⟨2, 1, List.replicate 20 5, by decide, by decide, by decide⟩ := by
  obtain ⟨rs, hrs⟩ := ReedSolomon.exists_corrige
  obtain ⟨hecc, hpapel, hfirmado, hshare⟩ := longitudes_iff rs hrs
  obtain ⟨trozos, h, -, hlen⟩ := Papel.exists_empaquetar_tres rs
  obtain ⟨text, htext, -⟩ := Api.textoDe_ok (ε := Api.DecodeError) Api.alfabetoAB
    (Api.qsg1.armar [0, 7] (List.replicate Pqsign.signatureLen 5))
  refine ⟨rs, hrs, ((hecc _ _).mpr (by decide)).2, ⟨trozos, h, ?_⟩, ⟨text, htext, ?_⟩,
    ((hshare _).mpr (by decide)).2⟩
  · exact ((hpapel _ _ _ _ h).mpr (by omega)).2
  · obtain ⟨blob, -, -, hd⟩ := (hfirmado Api.alfabetoAB 4294967295 (fun _ _ => true) [0, 7] _
      text htext List.length_replicate rfl (by decide)).mpr (by decide)
    exact hd

/-- Exactly 4 GiB: every header says something else. -/
theorem longitudes_mienten :
    ∃ rs : ReedSolomon, rs.Corrige ∧
      ofLe (((Ecc.protect rs (List.replicate (2 ^ 32) 0) 2).drop 1).take 4) ≠ 2 ^ 32 ∧
      (∃ trozos, Papel.empaquetar rs (List.replicate (2 ^ 32) 0) (2 ^ 17) 2 = .ok trozos ∧
        ∃ t ∈ trozos, ofBe ((t.drop 5).take 4) ≠
          (Ecc.protect rs (List.replicate (2 ^ 32) 0) 2).length) ∧
      (∀ signature,
        ofBe (((Api.qsg1.armar (List.replicate (2 ^ 32) 0) signature).drop 6).take 4) ≠ 2 ^ 32) ∧
      ∃ s : Shamir.Share, s.y = List.replicate (2 ^ 32) 0 ∧
        ofBe ((s.toBytes.drop 6).take 4) ≠ 2 ^ 32 := by
  have hlen : (List.replicate (2 ^ 32) (0 : UInt8)).length = 2 ^ 32 := List.length_replicate
  generalize List.replicate (2 ^ 32) (0 : UInt8) = datos at hlen ⊢
  obtain ⟨rs, hrs⟩ := ReedSolomon.exists_corrige
  have hdos : (Ecc.ajustar 2).toNat = 2 := by decide
  have hbloque : 255 - 2 = 253 := rfl
  have hprot := Ecc.length_protect rs datos 2
  have hcuerpo := Ecc.length_cuerpo rs (show 2 ≤ 128 by decide) datos
  rw [hdos] at hprot
  rw [hbloque] at hcuerpo
  have hbloques : (chunks 253 datos).length * 253 < datos.length + 253 :=
    length_chunks_lt (by decide) datos
  have htotal : max (Papel.divCeil (Ecc.protect rs datos 2).length (2 ^ 17 - Papel.cabecera)) 1 ≤
      65535 := by
    rw [Papel.divCeil, Papel.cabecera]
    omega
  obtain ⟨trozos, ht, -⟩ := Papel.exists_empaquetar rs datos (2 ^ 17) 2 (by decide) (by decide)
    rfl htotal
  obtain ⟨simbolo, htr, hpos, -, -, hs⟩ := Papel.empaquetar_ok ht
  have hm : simbolo 0 ∈ trozos := by
    rw [htr]
    exact List.mem_map_of_mem (List.mem_range.mpr hpos)
  refine ⟨rs, hrs, ?_, ⟨trozos, ht, simbolo 0, hm, ?_⟩, ?_,
    ⟨2, 1, datos, by decide, by decide, by rw [hlen]; decide⟩, rfl, ?_⟩
  · intro h
    rw [Ecc.largo_protect, ← hlen, ofLe_le_iff] at h
    omega
  · intro h
    rw [Papel.largo_simbolo (hs 0 hpos), ofBe_be_iff] at h
    omega
  · intro signature h
    rw [Api.Firmado.largo_armar rfl, ← hlen, ofBe_u32Be_iff] at h
    omega
  · intro h
    rw [Shamir.Share.largo_toBytes] at h
    have hlt := (ofBe_u32Be_iff datos.length).mp (h.trans hlen.symm)
    omega

end Quipu
