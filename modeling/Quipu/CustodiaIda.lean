import Quipu.CustodiaLectura
import Mathlib.Data.List.Perm.Basic

namespace Quipu.Custodia

open Aleatorio Almacen Lineas Prog Servidor Shamir Voprf

variable {q : ℕ} {G : Type} [AddCommGroup G] [Module (ZMod q) G] [Fact q.Prime]
  {S : Suite q G} {etiqueta : List UInt8 → Arr Shamir.tagLen}

theorem adaptExcept_eq_ok {ε ε' σ α : Type} {f : Fallo ε → Fallo ε'} {p : Prog σ ε α} {a : α}
    {s s' : σ} : EStateM.adaptExcept f p s = .ok a s' ↔ p s = .ok a s' := by
  unfold EStateM.adaptExcept
  cases p s with
  | ok b t => simp
  | error e t => simp

theorem okOr_eq_ok {α : Type} {e : Rechazo} {o : Option α} {a : α} :
    okOr e o = .ok a ↔ o = some a := by
  cases o with
  | none => exact iff_of_false (fun h => nomatch h) (fun h => nomatch h)
  | some b => rw [okOr, Except.ok.injEq, Option.some.injEq]

theorem leerStdin_eq_ok {que : String} {stdin : Stdin} {crudo : String} :
    leerStdin que stdin = .ok crudo ↔ stdin = .texto crudo := by
  cases stdin with
  | terminal => exact iff_of_false (fun h => nomatch h) (fun h => nomatch h)
  | ilegible => exact iff_of_false (fun h => nomatch h) (fun h => nomatch h)
  | texto s => rw [leerStdin, Except.ok.injEq, Stdin.texto.injEq]

theorem clavePublicaDe_eq_ok {seed : List UInt8} {publica : Arr 32} :
    clavePublicaDe S seed = .ok publica ↔ seed.length = seedLen ∧
      ∃ key, S.deriveKeyPair seed deriveInfo = some key ∧ S.publicKey key = publica := by
  unfold clavePublicaDe
  by_cases hl : seed.length = seedLen
  · rw [if_neg (not_not.mpr hl)]
    cases S.deriveKeyPair seed deriveInfo with
    | none => simp [fallar]
    | some key => simp [hl]
  · rw [if_pos hl]
    refine iff_of_false (fun h => ?_) fun h => hl h.1
    cases h

/-- A restoration returns the seed that the shares give, when it is the seed of the public key. -/
theorem verificarRestauracion_eq_ok {partes : List Share} {esperada : Arr 32}
    {seed : List UInt8} :
    verificarRestauracion S etiqueta partes esperada = .ok seed ↔
      combine etiqueta partes = .ok seed ∧ clavePublicaDe S seed = .ok esperada := by
  unfold verificarRestauracion reconstruir
  simp only [Res.bind_ok, Res.mapErr_eq_ok, rechazarSi_eq_ok, Res.pure_eq_ok, not_not]
  constructor
  · rintro ⟨_, hc, _, hp, _, rfl, rfl⟩
    exact ⟨hc, hp⟩
  · rintro ⟨hc, hp⟩
    exact ⟨seed, hc, esperada, hp, (), rfl, rfl⟩

theorem loadServerKey_some {hex : String} {c c' : Cinta} {key : ZMod q} :
    loadServerKey S (some hex) c = .ok key c' ↔ c' = c ∧
      ∃ seed, fromHex32 (trim hex) = some seed ∧
        S.deriveKeyPair seed.toList deriveInfo = some key := by
  rw [loadServerKey, Prog.deRes_eq_ok, and_comm]
  refine and_congr_right fun _ => ?_
  cases fromHex32 (trim hex) with
  | none => simp [fallar]
  | some seed => cases hk : S.deriveKeyPair seed.toList deriveInfo with
    | none => simp [hk, fallar]
    | some k => simp [hk]

/-- The shares of a seed, enough of them and in any order, are accepted with its public key. -/
theorem verificarRestauracion_split {seed : Arr 32} {umbral partes : UInt8} {c c' : Cinta}
    {fuera aportadas : List Share} {key : ZMod q}
    (hkey : S.deriveKeyPair seed.toList deriveInfo = some key)
    (h : split etiqueta seed.toList umbral partes c = .ok fuera c')
    (hsub : aportadas.Subperm fuera) (hbastan : umbral.toNat ≤ aportadas.length) :
    verificarRestauracion S etiqueta aportadas (S.publicKey key) = .ok seed.toList := by
  obtain ⟨ht, hs, _, css, _, rfl⟩ := split_eq_ok.mp h
  exact verificarRestauracion_eq_ok.mpr ⟨combine_repartir ht hs css hsub hbastan,
    clavePublicaDe_eq_ok.mpr ⟨seed.toList_length, key, hkey, rfl⟩⟩

theorem length_split {secret : List UInt8} {umbral partes : UInt8} {c c' : Cinta}
    {fuera : List Share} (h : split etiqueta secret umbral partes c = .ok fuera c') :
    fuera.length = partes.toNat ∧ umbral ≤ partes ∧
      ∀ s ∈ fuera, s.y.length = secret.length + Shamir.tagLen := by
  obtain ⟨ht, hs, hle, css, _, rfl⟩ := split_eq_ok.mp h
  refine ⟨?_, hle, fun s hm => ?_⟩
  · rw [Shamir.repartir, List.length_pmap, indices, List.length_map, List.length_range]
  · obtain ⟨x, hx, rfl⟩ := (mem_repartir ..).mp hm
    exact length_valores css _ x

/-- What `repartir` needs to deliver a sheet; the check before it delivers never fails. -/
theorem cmdRepartir_eq_ok {args : List String} {stdin : Stdin} {c c' : Cinta}
    {fuera : List String} :
    cmdRepartir S etiqueta args stdin c = .ok fuera c' ↔
      ∃ umbral partes crudo seed key comparticiones,
        (valor args "--umbral").bind parseU8 = some umbral ∧
        (valor args "--partes").bind parseU8 = some partes ∧
        stdin = .texto crudo ∧ fromHex32 (trim crudo) = some seed ∧
        S.deriveKeyPair seed.toList deriveInfo = some key ∧
        split etiqueta seed.toList umbral partes c = .ok comparticiones c' ∧
        fuera = hoja (S.publicKey key) umbral partes comparticiones := by
  unfold cmdRepartir Custodia.repartir
  simp only [Prog.bind_ok, Prog.deRes_eq_ok, okOr_eq_ok, leerStdin_eq_ok, Res.mapErr_eq_ok,
    clavePublicaDe_eq_ok]
  constructor
  · rintro ⟨umbral, _, ⟨hu, rfl⟩, partes, _, ⟨hp, rfl⟩, crudo, _, ⟨rfl, rfl⟩, seed, _,
      ⟨hseed, rfl⟩, publica, _, ⟨⟨hlen, key, hkey, rfl⟩, rfl⟩, comparticiones, c₁, hsplit, _, _,
      ⟨-, rfl⟩, hfin⟩
    rw [if_neg (not_not.mpr hlen), adaptExcept_eq_ok, adaptExcept_eq_ok] at hsplit
    cases hfin
    exact ⟨umbral, partes, crudo, seed, key, comparticiones, hu, hp, rfl, hseed, hkey, hsplit, rfl⟩
  · rintro ⟨umbral, partes, crudo, seed, key, comparticiones, hu, hp, rfl, hseed, hkey, hsplit,
      rfl⟩
    obtain ⟨hnum, hle, -⟩ := length_split hsplit
    have hbastan : umbral.toNat ≤ (comparticiones.take umbral.toNat).length := by
      rw [List.length_take, hnum]
      exact Nat.le_min.mpr ⟨Nat.le_refl _, UInt8.le_iff_toNat_le.mp hle⟩
    have hver := verificarRestauracion_split hkey hsplit
      (List.take_sublist umbral.toNat comparticiones).subperm hbastan
    have hlen : seed.toList.length = seedLen := seed.toList_length
    refine ⟨umbral, _, ⟨hu, rfl⟩, partes, _, ⟨hp, rfl⟩, crudo, _, ⟨rfl, rfl⟩, seed, _,
      ⟨hseed, rfl⟩, _, _, ⟨⟨hlen, key, hkey, rfl⟩, rfl⟩, comparticiones, c', ?_, _, _,
      ⟨hver, rfl⟩, rfl⟩
    rw [if_neg (not_not.mpr hlen), adaptExcept_eq_ok, adaptExcept_eq_ok]
    exact hsplit

theorem toBytes_ne_nil (s : Share) : s.toBytes ≠ [] := fun h => nomatch h

theorem limpia_lineasDe {partes : UInt8} {comparticiones : List Share} {l : String}
    (h : l ∈ lineasDe partes comparticiones) : Limpia l := by
  obtain ⟨⟨s, i⟩, -, hl⟩ := List.mem_flatMap.mp h
  rcases List.mem_pair.mp hl with rfl | rfl
  · exact limpia_toHex _
  · have hnumero : Limpia "#  ^ compartición " := by decide +kernel
    have hde : Limpia " de " := by decide +kernel
    exact ((hnumero.append (limpia_toString _)).append hde).append (limpia_toString _)

theorem limpia_hoja {publica : Arr 32} {umbral partes : UInt8} {comparticiones : List Share}
    {l : String} (h : l ∈ hoja publica umbral partes comparticiones) : Limpia l := by
  have htitulo : Limpia "# clave pública (ANÓTALA: verifica cualquier restauración futura)" := by
    decide +kernel
  have halmohadilla : Limpia "# " := by decide +kernel
  have hfaltan : Limpia " comparticiones, hacen falta " := by decide +kernel
  have hverificado : Limpia "# reparto VERIFICADO: " := by decide +kernel
  have hreconstruyen : Limpia " de ellas reconstruyen esta clave" := by decide +kernel
  rcases List.mem_append.mp h with h | h
  · simp only [List.mem_cons, List.not_mem_nil, or_false] at h
    rcases h with rfl | rfl | rfl | rfl
    · exact htitulo
    · exact limpia_toHex _
    · exact ((halmohadilla.append (limpia_toString _)).append hfaltan).append (limpia_toString _)
    · exact (hverificado.append (limpia_toString _)).append hreconstruyen
  · exact limpia_lineasDe h

theorem utiles_lineasDe (partes : UInt8) (l : List (Share × ℕ)) :
    ((l.flatMap fun p => [toHex p.1.toBytes, "#  ^ compartición " ++ toString (p.2 + 1) ++
      " de " ++ toString partes.toNat]).map trim).filter util =
      l.map fun p => toHex p.1.toBytes := by
  induction l with
  | nil => rfl
  | cons p l ih =>
    have hcomentario : ¬(util (trim ("#  ^ compartición " ++ toString (p.2 + 1) ++ " de " ++
        toString partes.toNat)) = true) := by
      refine not_util_comentario ?_
      simp only [String.toList_append]
      rfl
    rw [List.flatMap_cons, List.map_append, List.filter_append, ih, List.map_cons, List.map_cons,
      List.map_nil, trim_toHex, List.filter_cons_of_pos (util_toHex (toBytes_ne_nil p.1)),
      List.filter_cons_of_neg hcomentario, List.filter_nil, List.map_cons]
    rfl

/-- Of the sheet of `repartir`, only the public key and the shares are read back. -/
theorem utiles_hoja (publica : Arr 32) (umbral partes : UInt8) (comparticiones : List Share) :
    utiles (escrito (hoja publica umbral partes comparticiones)) =
      toHex publica.toList :: comparticiones.map fun s => toHex s.toBytes := by
  have hpublica : publica.toList ≠ [] := by
    intro h
    have hlen := publica.toList_length
    rw [h] at hlen
    cases hlen
  have htitulo : ¬(util (trim
      "# clave pública (ANÓTALA: verifica cualquier restauración futura)") = true) :=
    not_util_comentario (by decide +kernel)
  have hfaltan : ¬(util (trim ("# " ++ toString partes.toNat ++
      " comparticiones, hacen falta " ++ toString umbral.toNat)) = true) := by
    refine not_util_comentario ?_
    simp only [String.toList_append]
    rfl
  have hverificado : ¬(util (trim ("# reparto VERIFICADO: " ++ toString umbral.toNat ++
      " de ellas reconstruyen esta clave")) = true) := by
    refine not_util_comentario ?_
    simp only [String.toList_append]
    rfl
  have hpartes : comparticiones.zipIdx.map (fun p => toHex p.1.toBytes) =
      comparticiones.map fun s => toHex s.toBytes := by
    have hmap : (comparticiones.zipIdx.map Prod.fst).map (fun s => toHex s.toBytes) =
        comparticiones.zipIdx.map fun p => toHex p.1.toBytes := List.map_map
    rw [← hmap, List.zipIdx_map_fst]
  rw [utiles, textoLineas_escrito fun l hl => limpia_hoja hl, hoja, List.map_append,
    List.filter_append, lineasDe, utiles_lineasDe, hpartes, List.map_cons, List.map_cons,
    List.map_cons, List.map_cons, List.map_nil, List.filter_cons_of_neg htitulo, trim_toHex,
    List.filter_cons_of_pos (util_toHex hpublica), List.filter_cons_of_neg hfaltan,
    List.filter_cons_of_neg hverificado, List.filter_nil, List.singleton_append]

/-- A choice among the values of a function is the values of a choice. -/
theorem exists_subperm_map {α β : Type} {f : α → β} {l : List β} {xs : List α}
    (h : l.Subperm (xs.map f)) : ∃ l' : List α, l'.Subperm xs ∧ l = l'.map f := by
  obtain ⟨orden, hperm, hsub⟩ := h
  obtain ⟨l', hl', rfl⟩ := List.sublist_map_iff.mp hsub
  have hcomp : Relation.Comp (· = List.map f ·) List.Perm l l' := by
    rw [List.eq_map_comp_perm]
    exact hperm.symm
  obtain ⟨l'', rfl, hp⟩ := hcomp
  exact ⟨l'', hp.subperm.trans hl'.subperm, rfl⟩

/-- Copies of shares of a seed are read as these shares. -/
theorem leerPartes_copias {texto : String} {aportadas : List Share}
    (h : List.Forall₂ Copiada (utiles texto) (aportadas.map fun s => toHex s.toBytes))
    (hlen : ∀ s ∈ aportadas, s.y.length < 2 ^ 32) :
    leerPartes 0 (textoLineas texto) = .ok aportadas := by
  rw [leerPartes_eq_ok]
  rw [List.forall₂_map_right_iff] at h
  exact List.Forall₂.imp (fun l s hls => ⟨hls.2, hls.1⟩)
    ((List.forall₂_and_left _ _).mpr ⟨hlen, h.flip⟩).flip

theorem copiada_toHex (bs : List UInt8) : Copiada (toHex bs) (toHex bs) :=
  fromHex_eq_some.mp (fromHex_toHex bs)

/-- The shares of a seed, written one in each line. -/
theorem utiles_partes (partes : List Share) :
    utiles (escrito (partes.map fun s => toHex s.toBytes)) =
      partes.map fun s => toHex s.toBytes := by
  have hlimpia : ∀ l ∈ partes.map fun s => toHex s.toBytes, Limpia l := by
    intro l hl
    obtain ⟨s, -, rfl⟩ := List.mem_map.mp hl
    exact limpia_toHex _
  have htrim : (partes.map fun s => toHex s.toBytes).map trim =
      partes.map fun s => toHex s.toBytes := by
    rw [List.map_map]
    exact List.map_congr_left fun s _ => trim_toHex _
  have hutil : ∀ l ∈ partes.map fun s => toHex s.toBytes, util l = true := by
    intro l hl
    obtain ⟨s, -, rfl⟩ := List.mem_map.mp hl
    exact util_toHex (toBytes_ne_nil s)
  rw [utiles, textoLineas_escrito hlimpia, htrim, List.filter_eq_self.mpr hutil]

/-- `restaurar` accepts copies of the shares of a seed against its public key. -/
theorem cmdRestaurar_copias {seed : Arr 32} {umbral partes : UInt8} {c c' : Cinta}
    {fuera : List Share} {key : ZMod q} {texto : String} {copias args : List String}
    (hkey : S.deriveKeyPair seed.toList deriveInfo = some key)
    (h : split etiqueta seed.toList umbral partes c = .ok fuera c')
    (hcopias : List.Forall₂ Copiada (utiles texto) copias)
    (hsub : copias.Subperm (fuera.map fun s => toHex s.toBytes))
    (hbastan : umbral.toNat ≤ copias.length)
    (hpublica : valor args "--clave-publica" = some (toHex (S.publicKey key).toList)) :
    cmdRestaurar S etiqueta args (.texto texto) =
      .ok (if "--mostrar-seed" ∈ args then [toHex seed.toList] else []) := by
  obtain ⟨-, -, hlargo⟩ := length_split h
  obtain ⟨aportadas, hap, rfl⟩ := exists_subperm_map hsub
  have hcorta : ∀ s ∈ aportadas, s.y.length < 2 ^ 32 := by
    intro s hs
    rw [hlargo s (hap.subset hs), seed.toList_length]
    decide
  have hleidas := leerPartes_copias hcopias hcorta
  rw [List.length_map] at hbastan
  have hver := verificarRestauracion_split hkey h hap hbastan
  have hno : aportadas ≠ [] := by
    rintro rfl
    obtain ⟨ht, -⟩ := split_eq_ok.mp h
    have htwo : 2 ≤ umbral.toNat := UInt8.le_iff_toNat_le.mp ht
    rw [List.length_nil] at hbastan
    omega
  have hesperada : (valor args "--clave-publica").bind fromHex32 = some (S.publicKey key) := by
    rw [hpublica, Option.bind_some, fromHex32_toHex]
  rw [cmdRestaurar, okOr_eq_ok.mpr hesperada, Res.ok_bind, leerStdin, Res.ok_bind, hleidas,
    Res.ok_bind, rechazarSi_of_not _ hno, Res.ok_bind, hver, Res.mapErr_ok, Res.ok_bind]
  rfl

/-- A suite whose scalars are never zero. -/
def deTresFirme : Suite 3 (ZMod 3) := { Suite.deTres with fromBytesModOrderWide := fun _ => 1 }

theorem deriveKeyPair_deTresFirme (seed info : List UInt8) :
    deTresFirme.deriveKeyPair seed info = some 1 :=
  deTresFirme.deriveKeyPair_eq_some.mpr
    ⟨one_ne_zero, 0, by decide, rfl, fun j hj => absurd hj j.not_lt_zero⟩

/-- A tape for which a seed is split. -/
theorem exists_split (seed : Arr 32) : ∃ c c' fuera,
    split etiquetaNula seed.toList 2 3 c = .ok fuera c' := by
  let css : List.Vector (Arr ((2 : UInt8).toNat - 1)) (seed.toList.length + Shamir.tagLen) :=
    List.Vector.replicate _ (List.Vector.replicate _ 5)
  have hsanos : ∀ v ∈ css.toList, saludDe v.toList = none := by
    intro v hv
    rw [List.eq_of_mem_replicate hv]
    rfl
  have hne : seed.toList ≠ [] := by
    intro h
    have hlen := seed.toList_length
    rw [h] at hlen
    cases hlen
  exact ⟨_, _, _, split_reponerTodos (by decide) hne (by decide) hsanos
    (Stream'.const (.entrega fun _ => 0))⟩

/-- A sheet that `repartir` delivers names the public key of the server that starts with the
seed, and any copies of its shares, as many as the threshold or more, in any order and among blank
lines and comments, give back a text that starts a server with the same key. -/
theorem repartir_restaurar (S : Suite q G) (etiqueta : List UInt8 → Arr Shamir.tagLen)
    (args : List String) (crudo : String) (c c' : Cinta) (fuera : List String)
    (h : cmdRepartir S etiqueta args (.texto crudo) c = .ok fuera c') :
    ∃ key umbral n, ∃ publica, ∃ partes : List String,
      (∀ d, loadServerKey S (some crudo) d = .ok key d) ∧
      publica = toHex (S.publicKey key).toList ∧
      (valor args "--umbral").bind parseU8 = some umbral ∧
      (valor args "--partes").bind parseU8 = some n ∧
      utiles (escrito fuera) = publica :: partes ∧ partes.length = n.toNat ∧
      ∀ texto copias args', List.Forall₂ Copiada (utiles texto) copias →
        copias.Subperm partes → umbral.toNat ≤ copias.length →
        valor args' "--clave-publica" = some publica →
        ∃ linea, (∀ d, loadServerKey S (some linea) d = .ok key d) ∧
          cmdRestaurar S etiqueta args' (.texto texto) =
            .ok (if "--mostrar-seed" ∈ args' then [linea] else []) := by
  obtain ⟨umbral, n, _, seed, key, comparticiones, hu, hn, hin, hseed, hkey, hsplit, rfl⟩ :=
    cmdRepartir_eq_ok.mp h
  cases hin
  obtain ⟨hnum, -, -⟩ := length_split hsplit
  refine ⟨key, umbral, n, _, comparticiones.map fun s => toHex s.toBytes, fun d =>
    loadServerKey_some.mpr ⟨rfl, seed, hseed, hkey⟩, rfl, hu, hn,
    utiles_hoja _ umbral n comparticiones, by rw [List.length_map, hnum], ?_⟩
  intro texto copias args' hcopias hsub hbastan hpublica
  exact ⟨toHex seed.toList,
    fun d => loadServerKey_some.mpr ⟨rfl, seed, fromHex32_trim_toHex seed, hkey⟩,
    cmdRestaurar_copias hkey hsplit hcopias hsub hbastan hpublica⟩

theorem repartir_restaurar_tres :
    ∃ c c' fuera, cmdRepartir deTresFirme etiquetaNula
        ["repartir", "--umbral", "2", "--partes", "3"]
        (.texto "0101010101010101010101010101010101010101010101010101010101010101\n") c =
        .ok fuera c' ∧
      ∃ publica, ∃ partes : List String, utiles (escrito fuera) = publica :: partes ∧
        partes.length = 3 ∧ ∀ texto copias, List.Forall₂ Copiada (utiles texto) copias →
          copias.Subperm partes → copias.length = 2 →
          ∃ linea, cmdRestaurar deTresFirme etiquetaNula
            ["restaurar", "--clave-publica", publica, "--mostrar-seed"] (.texto texto) =
              .ok [linea] := by
  obtain ⟨c, c', comparticiones, hsplit⟩ := exists_split (List.Vector.replicate 32 1)
  have hok : cmdRepartir deTresFirme etiquetaNula ["repartir", "--umbral", "2", "--partes", "3"]
      (.texto "0101010101010101010101010101010101010101010101010101010101010101\n") c =
      .ok _ c' :=
    cmdRepartir_eq_ok.mpr ⟨2, 3, _, List.Vector.replicate 32 1, 1, comparticiones,
      by decide +kernel, by decide +kernel, rfl, by decide +kernel,
      deriveKeyPair_deTresFirme _ _, hsplit, rfl⟩
  refine ⟨c, c', _, hok, ?_⟩
  obtain ⟨_, umbral, n, publica, partes, -, -, hu, hn, hutiles, hlen, hrestaura⟩ :=
    repartir_restaurar deTresFirme etiquetaNula _ _ c c' _ hok
  have h2 : umbral = 2 := Option.some.inj (hu.symm.trans (by decide +kernel))
  have h3 : n = 3 := Option.some.inj (hn.symm.trans (by decide +kernel))
  subst h2 h3
  refine ⟨publica, partes, hutiles, hlen, fun texto copias hcopias hsub hdos => ?_⟩
  obtain ⟨linea, -, hlinea⟩ := hrestaura texto copias
    ["restaurar", "--clave-publica", publica, "--mostrar-seed"] hcopias hsub hdos.ge rfl
  rw [if_pos (by simp)] at hlinea
  exact ⟨linea, hlinea⟩

theorem length_of_loadServerKey {seed : List UInt8} {c c' : Cinta} {key : ZMod q}
    (h : loadServerKey S (some (toHex seed)) c = .ok key c') : seed.length = seedLen := by
  obtain ⟨-, a, ha, -⟩ := loadServerKey_some.mp h
  rw [trim_toHex, fromHex32_eq_some, fromHex_toHex, Option.some.injEq] at ha
  rw [ha, a.toList_length]
  rfl

/-- The seeds of a server's public key are those that start a server with the same key. -/
theorem clavePublicaDe_iff_loadServerKey {seed : List UInt8} {key : ZMod q} :
    clavePublicaDe S seed = .ok (S.publicKey key) ↔
      ∀ d, loadServerKey S (some (toHex seed)) d = .ok key d := by
  rw [clavePublicaDe_eq_ok]
  constructor
  · rintro ⟨hlen, key', hkey', hpub⟩ d
    have hB : key' • S.basepoint = key • S.basepoint := S.compress_inj hpub
    have hk : key' = key := smul_left_injective (ZMod q) S.basepoint_ne_zero hB
    subst hk
    obtain ⟨a, rfl⟩ : ∃ a : Arr 32, a.toList = seed := ⟨⟨seed, hlen⟩, rfl⟩
    exact loadServerKey_some.mpr ⟨rfl, a, fromHex32_trim_toHex a, hkey'⟩
  · intro h
    have hlen := length_of_loadServerKey (h (Stream'.const (.entrega fun _ => 0)))
    obtain ⟨a, rfl⟩ : ∃ a : Arr 32, a.toList = seed := ⟨⟨seed, hlen⟩, rfl⟩
    obtain ⟨-, b, hb, hkey⟩ := loadServerKey_some.mp (h (Stream'.const (.entrega fun _ => 0)))
    rw [fromHex32_trim_toHex, Option.some.injEq] at hb
    subst hb
    exact ⟨hlen, key, hkey, rfl⟩

/-- Whatever shares it is given, `restaurar` accepts them against the public key of a server exactly
when they combine to a seed that starts a server with the same key, and that seed is what it
shows. -/
theorem restaurar_mismo_servicio (S : Suite q G) (etiqueta : List UInt8 → Arr Shamir.tagLen)
    (key : ZMod q) (args : List String) (stdin : Stdin) (fuera : List String)
    (hpublica : (valor args "--clave-publica").bind fromHex32 = some (S.publicKey key)) :
    cmdRestaurar S etiqueta args stdin = .ok fuera ↔
      ∃ texto partes seed, stdin = .texto texto ∧
        leerPartes 0 (textoLineas texto) = .ok partes ∧ partes ≠ [] ∧
        combine etiqueta partes = .ok seed ∧
        (∀ d, loadServerKey S (some (toHex seed)) d = .ok key d) ∧
        fuera = if "--mostrar-seed" ∈ args then [toHex seed] else [] := by
  unfold cmdRestaurar
  simp only [Res.bind_ok, okOr_eq_ok, Res.mapErr_eq_ok, rechazarSi_eq_ok, Res.pure_eq_ok,
    verificarRestauracion_eq_ok, leerStdin_eq_ok]
  constructor
  · rintro ⟨_, hesperada, texto, rfl, partes, hpartes, _, hno, seed, ⟨hseed, hpub⟩, rfl⟩
    rw [hpublica] at hesperada
    cases hesperada
    exact ⟨texto, partes, seed, rfl, hpartes, hno, hseed,
      clavePublicaDe_iff_loadServerKey.mp hpub, rfl⟩
  · rintro ⟨texto, partes, seed, rfl, hpartes, hno, hseed, hsirve, rfl⟩
    exact ⟨_, hpublica, texto, rfl, partes, hpartes, (), hno, seed,
      ⟨hseed, clavePublicaDe_iff_loadServerKey.mpr hsirve⟩, rfl⟩

theorem restaurar_mismo_servicio_tres :
    ∃ texto publica partes seed, leerPartes 0 (textoLineas texto) = .ok partes ∧
      combine etiquetaNula partes = .ok seed ∧
      (∀ d, loadServerKey deTresFirme (some (toHex seed)) d = .ok 1 d) ∧
      cmdRestaurar deTresFirme etiquetaNula ["restaurar", "--clave-publica", publica]
        (.texto texto) = .ok [] := by
  let seed : Arr 32 := List.Vector.replicate 32 1
  have hpublica : fromHex32 (toHex (deTresFirme.publicKey 1).toList) =
      some (deTresFirme.publicKey 1) := fromHex32_toHex _
  obtain ⟨c, c', comparticiones, hsplit⟩ := exists_split seed
  have hcopias : List.Forall₂ Copiada
      (utiles (escrito (comparticiones.map fun s => toHex s.toBytes)))
      (comparticiones.map fun s => toHex s.toBytes) := by
    rw [utiles_partes, List.forall₂_same]
    intro l hl
    obtain ⟨s, -, rfl⟩ := List.mem_map.mp hl
    exact copiada_toHex _
  have hbastan : (2 : UInt8).toNat ≤ (comparticiones.map fun s => toHex s.toBytes).length := by
    rw [List.length_map, (length_split hsplit).1]
    decide
  have hok : cmdRestaurar deTresFirme etiquetaNula
      ["restaurar", "--clave-publica", toHex (deTresFirme.publicKey 1).toList]
      (.texto (escrito (comparticiones.map fun s => toHex s.toBytes))) = .ok [] :=
    cmdRestaurar_copias (deriveKeyPair_deTresFirme _ _) hsplit hcopias
      (List.Perm.refl _).subperm hbastan rfl
  obtain ⟨texto, partes, dada, htexto, hpartes, -, hdada, hsirve, -⟩ :=
    (restaurar_mismo_servicio deTresFirme etiquetaNula 1
      ["restaurar", "--clave-publica", toHex (deTresFirme.publicKey 1).toList] _ [] hpublica).mp hok
  cases htexto
  exact ⟨_, _, partes, dada, hpartes, hdada, hsirve, hok⟩

end Quipu.Custodia
