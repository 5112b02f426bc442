import Quipu.Ecc

namespace Quipu

namespace Papel

inductive PapelError where
  | capacidadInsuficiente (dada minima : Nat)
  | demasiadosSimbolos (necesarios : Nat)
  | paridadExcesiva (dada maxima : UInt8)
  | sinTrozos
  | versionDesconocida (v : UInt8)
  | trozosIncoherentes
  | noSeRecupera
  deriving DecidableEq, Repr

def version : UInt8 := 1

def cabecera : Nat := 1 + 2 + 2 + 4

def bloqueRs : Nat := 255

def cabeceraEcc : Nat := 15

def cabeceraEccCorrige : Nat := 5

def divCeil (a b : Nat) : Nat := (a + b - 1) / b

/-- How many whole symbols, any of them, can be lost. -/
def simbolosPerdidosTolerados (total : Nat) (paridad : UInt8) : Nat :=
  if total = 0 then 0 else
  let presupuesto := paridad.toNat / 2
  let perdidosPorBloque := divCeil bloqueRs total
  let porDatos := presupuesto / max perdidosPorBloque 1
  let porCabecera :=
    if cabeceraEcc ≤ total then cabeceraEccCorrige
    else cabeceraEccCorrige / divCeil cabeceraEcc total
  min porDatos porCabecera

def cabeceraDe (total largo j : Nat) : List UInt8 := version :: be 2 j ++ be 2 total ++ be 4 largo

/-- The loop that hands the bytes from position `i` on to the symbols. -/
def repartir (total : Nat) : Nat → List UInt8 → List (List UInt8) → List (List UInt8)
  | _, [], trozos => trozos
  | i, b :: bs, trozos => repartir total (i + 1) bs (trozos.modify (i % total) (· ++ [b]))

def empaquetar (rs : ReedSolomon) (datos : List UInt8) (capacidad : Nat) (paridad : UInt8) :
    Res PapelError (List (List UInt8)) := do
  rechazarSi (capacidad ≤ cabecera) (.capacidadInsuficiente capacidad (cabecera + 1))
  rechazarSi (Ecc.paridadMaxima < paridad) (.paridadExcesiva paridad Ecc.paridadMaxima)
  let util := capacidad - cabecera
  let protegido := Ecc.protect rs datos paridad
  let total := max (divCeil protegido.length util) 1
  rechazarSi (65535 < total) (.demasiadosSimbolos total)
  pure (repartir total 0 protegido ((List.range total).map (cabeceraDe total protegido.length)))

structure Cabecera where
  indice : Nat
  total : Nat
  largo : Nat
  deriving DecidableEq

def leerCabecera (t : List UInt8) : Res PapelError Cabecera := do
  rechazarSi (t.length < cabecera) .trozosIncoherentes
  let v ← octeto t 0
  rechazarSi (v ≠ version) (.versionDesconocida v)
  pure ⟨ofBe ((t.drop 1).take 2), ofBe ((t.drop 3).take 2), ofBe ((t.drop 5).take 4)⟩

def usizeMax : Nat := 2 ^ 64 - 1

def checkedMul (a b : Nat) : Option Nat := if a * b ≤ usizeMax then some (a * b) else none

def checkedAdd (a b : Nat) : Option Nat := if a + b ≤ usizeMax then some (a + b) else none

def saturatingMul (a b : Nat) : Nat := min (a * b) usizeMax

def saturatingAdd (a b : Nat) : Nat := min (a + b) usizeMax

/-- The loop that writes the bytes of a symbol, from its `k`-th on, where they belong. -/
def colocar (total indice : Nat) : Nat → List UInt8 → List UInt8 → List UInt8
  | _, [], flujo => flujo
  | k, b :: bs, flujo =>
    match (checkedMul k total).bind (checkedAdd indice) with
    | none => flujo
    | some pos =>
      if flujo.length ≤ pos then flujo else colocar total indice (k + 1) bs (flujo.set pos b)

def recorrer (c0 : Cabecera) : List (List UInt8) → List Bool → List UInt8 →
    Res PapelError (List UInt8)
  | [], _, flujo => pure flujo
  | t :: ts, vistos, flujo => do
    let c ← leerCabecera t
    rechazarSi (c.total ≠ c0.total ∨ c.largo ≠ c0.largo ∨ c0.total ≤ c.indice) .trozosIncoherentes
    rechazarSi (vistos.getD c.indice false) .trozosIncoherentes
    recorrer c0 ts (vistos.set c.indice true)
      (colocar c0.total c.indice 0 (t.drop cabecera) flujo)

def mayorCarga (trozos : List (List UInt8)) : Nat :=
  (trozos.map fun t => t.length - cabecera).foldl max 0

def reensamblar (rs : ReedSolomon) : List (List UInt8) → Res PapelError (List UInt8)
  | [] => fallar .sinTrozos
  | primero :: resto => do
    let c0 ← leerCabecera primero
    rechazarSi (c0.total = 0 ∨ c0.largo = 0) .trozosIncoherentes
    let techo := saturatingMul c0.total (saturatingAdd (mayorCarga (primero :: resto)) 1)
    rechazarSi (techo < c0.largo) .trozosIncoherentes
    let flujo ← recorrer c0 (primero :: resto) (List.replicate c0.total false)
      (List.replicate c0.largo 0)
    match Ecc.recover rs flujo with
    | some datos => pure datos
    | none => fallar .noSeRecupera

@[simp] theorem length_cabeceraDe (total largo j : Nat) :
    (cabeceraDe total largo j).length = 9 := by
  simp [cabeceraDe]

theorem leerCabecera_cabeceraDe {total largo j : Nat} (hj : j < 2 ^ 16) (ht : total < 2 ^ 16)
    (hl : largo < 2 ^ 32) (carga : List UInt8) :
    leerCabecera (cabeceraDe total largo j ++ carga) = .ok ⟨j, total, largo⟩ := by
  unfold leerCabecera
  have h₀ : (octeto (cabeceraDe total largo j ++ carga) 0 : Res PapelError UInt8) =
      .ok version := rfl
  rw [rechazarSi_of_not _ (by simp [cabecera]), h₀]
  have h₁ : ((cabeceraDe total largo j ++ carga).drop 1).take 2 = be 2 j := by
    simp [cabeceraDe]
  have h₂ : ((cabeceraDe total largo j ++ carga).drop 3).take 2 = be 2 total := by
    simp [cabeceraDe]
  have h₃ : ((cabeceraDe total largo j ++ carga).drop 5).take 4 = be 4 largo := by
    simp [cabeceraDe, List.drop_append, List.drop_of_length_le]
  rw [h₁, h₂, h₃, ofBe_be (by omega), ofBe_be (by omega), ofBe_be (by omega)]
  simp [rechazarSi_of_not]

end Papel

end Quipu
