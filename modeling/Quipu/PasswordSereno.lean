import Quipu.PasswordBlob
import Quipu.Sereno

namespace Quipu

variable {M K : Type} {kdf : Kdf M K} {params : KdfParams}

theorem exists_encodeToBlob (ha : kdf.acepta params = true) (aead : Aead 24 K)
    (data : List UInt8) (passphrase : String) (pepper : List UInt8) (huella : Arr 8) :
    ∃ salt nonce m', Api.encodeToBlob kdf aead data passphrase huella ⟨pepper, params⟩ .sereno =
      .ok (Container.serialize (cabeceraDe huella params salt nonce) (Api.modo.selloDe kdf aead
        data passphrase huella params pepper salt nonce).ciphertext) m' := by
  refine ⟨_, _, _, Prog.bind_ok.mpr ⟨_, _, pedirRng_sereno 16, Prog.bind_ok.mpr
    ⟨_, _, pedirRng_sereno 24, Modo.cifrar_eq_ok.mpr ⟨ha, rfl, rfl⟩⟩⟩⟩

theorem exists_encodeToBlob_cnsa (ha : kdf.acepta params = true) (aead : Aead 12 K)
    (data : List UInt8) (passphrase : String) (pepper : List UInt8) (huella : Arr 8) :
    ∃ salt nonce m', Cnsa.encodeToBlob kdf aead data passphrase huella ⟨params, pepper⟩ .sereno =
      .ok (Container.serialize (cabeceraDe huella params salt nonce) (Cnsa.modo.selloDe kdf aead
        data passphrase huella params pepper salt nonce).ciphertext) m' := by
  refine ⟨_, _, _, Prog.bind_ok.mpr ⟨_, _, pedirFill_sereno 16, Prog.bind_ok.mpr
    ⟨_, _, pedirFill_sereno 12, Modo.cifrar_eq_ok.mpr ⟨ha, rfl, rfl⟩⟩⟩⟩

end Quipu
