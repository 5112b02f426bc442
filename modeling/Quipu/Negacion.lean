import Quipu.Mundo
import Quipu.PadmeFrame

namespace Quipu

namespace Negacion

variable {M K : Type}

def tag : Nat := 16

def infoSenuelo : List UInt8 := utf8 "quipu/negacion/v1/senuelo"

def infoOculto : List UInt8 := utf8 "quipu/negacion/v1/oculto"

def infoNonce : List UInt8 := utf8 "/nonce"

def tamanoMinimo : Nat := 1024

inductive Volumen where
  | senuelo
  | oculto
  deriving DecidableEq, Repr

inductive NegacionError where
  | tamanoInsuficiente (dado minimo : Nat)
  | noCabe (volumen : Volumen) (disponible necesario : Nat)
  | senueloVacio
  | mismaContrasena
  | contenedorCorto
  | noAbre
  | sinEntropia (e : String)
  deriving DecidableEq, Repr

/-- A cost profile. The published one and those of the laboratory are all in range. -/
structure Perfil where
  nombre : String
  params : KdfParams
  sano : params.isSane = true

def Perfil.v1 : Perfil := ⟨"v1", ⟨262144, 4, 1⟩, by decide⟩

def Perfil.conocidos : List Perfil := [Perfil.v1]

structure Apertura where
  volumen : Volumen
  datos : List UInt8
  deriving DecidableEq, Repr

structure Tramo where
  ini : Nat
  fin : Nat

def Tramo.len (t : Tramo) : Nat := t.fin - t.ini

def Tramo.de (t : Tramo) (xs : List UInt8) : List UInt8 := (xs.drop t.ini).take t.len

def Tramo.copiar (t : Tramo) (xs ys : List UInt8) : Res NegacionError (List UInt8) :=
  if ys.length = t.len then .ok (xs.take t.ini ++ ys ++ xs.drop t.fin)
  else panico "copy_from_slice: source slice length does not match destination slice length"

/-- The decoy's and the hidden region, from the total size alone. -/
def tramos (total : Nat) : Tramo × Tramo :=
  let cuerpo := total - saltLen
  let d := cuerpo / 2
  (⟨saltLen, saltLen + d⟩, ⟨saltLen + d, total⟩)

def clavesDeRegion (kdf : Kdf M K) (maestra : M) (info : List UInt8) :
    Res NegacionError (K × Arr 24) := do
  let nonce ← deriveStream kdf maestra (info ++ infoNonce) 24
  pure (deriveSubkey kdf maestra info, nonce)

def datoAutenticado (salt : Arr 16) (tamanoTotal : Nat) : List UInt8 :=
  salt.toList ++ be 8 tamanoTotal

/-- `aleatorio::llenar` with its error turned into `SinEntropia`. -/
def llenarDe (n : Nat) : Prog (Mundo 24 K) NegacionError (Arr n) :=
  pedir (fun e => .error (.sinEntropia e.toTexto)) n

def claroDeRegion (datos : List UInt8) (largoClaro : Nat) (volumen : Volumen) :
    Prog (Mundo 24 K) NegacionError (List UInt8) := do
  let claro ← Prog.deRes (Prelayers.padEn 64 datos)
  Prog.rechazarSi (largoClaro < claro.length) (.noCabe volumen largoClaro claro.length)
  let relleno ← llenarDe (largoClaro - claro.length)
  pure (claro ++ relleno.toList)

def ctEq (a b : List UInt8) : Bool := if a.length ≠ b.length then false else a == b

def iguales (kdf : Kdf M K) (claveSenuelo claveOculta : String) : Bool :=
  ctEq (utf8 (normalizar kdf claveSenuelo)) (utf8 (normalizar kdf claveOculta))

/-- The passphrase that is derived and thrown away when there is no hidden volume. -/
def descarteDe (relleno : List UInt8) : String :=
  String.ofList (relleno.flatMap Aleatorio.hexDigits)

/-- What `crear` does for each region: derive, frame, seal. -/
def sellarRegion (kdf : Kdf M K) (aead : Aead 24 K) (perfil : Perfil) (salt : Arr 16)
    (total : Nat) (clave : String) (info datos : List UInt8) (tramo : Tramo) (volumen : Volumen) :
    Prog (Mundo 24 K) NegacionError (List UInt8) := do
  let maestra ← derivar kdf clave salt [] perfil.params
  let (k, nonce) ← Prog.deRes (clavesDeRegion kdf maestra info)
  let claro ← claroDeRegion datos (tramo.len - tag) volumen
  sellar aead k nonce claro (datoAutenticado salt total)

def crear (kdf : Kdf M K) (aead : Aead 24 K) (tamanoTotal : Nat) (senuelo : List UInt8)
    (claveSenuelo : String) (oculto : Option (List UInt8 × String)) (perfil : Perfil) :
    Prog (Mundo 24 K) NegacionError (List UInt8) := do
  Prog.rechazarSi (senuelo = []) .senueloVacio
  Prog.rechazarSi (tamanoTotal < tamanoMinimo) (.tamanoInsuficiente tamanoTotal tamanoMinimo)
  Prog.rechazarSi (oculto.any fun o => iguales kdf claveSenuelo o.2) .mismaContrasena
  let (rSenuelo, rOculto) := tramos tamanoTotal
  Prog.deRes (Padme.reservarEn 64 tamanoTotal)
  let fuera ← llenarDe tamanoTotal
  let salt ← Prog.deRes (campo fuera.toList 0 16)
  let cifrado ← sellarRegion kdf aead perfil salt tamanoTotal claveSenuelo infoSenuelo senuelo
    rSenuelo .senuelo
  let fuera ← Prog.deRes (rSenuelo.copiar fuera.toList cifrado)
  let relleno ← llenarDe 32
  let (datos, claveOculta) := oculto.getD ([], descarteDe relleno.toList)
  let cifrado ← sellarRegion kdf aead perfil salt tamanoTotal claveOculta infoOculto datos
    rOculto .oculto
  if oculto.isSome then Prog.deRes (rOculto.copiar fuera cifrado) else pure fuera

/-- The trial decryption of one region, as `ok()` leaves it. -/
def probar (aead : Aead 24 K) (k : K) (nonce : Arr 24) (region aad : List UInt8) :
    Option (List UInt8) :=
  (Cipher.decrypt aead k nonce region aad).toOption

def intentar (kdf : Kdf M K) (aead : Aead 24 K) (contenedor : List UInt8) (contrasena : String)
    (perfil : Perfil) : Res NegacionError (Option Apertura) := do
  let salt ← campo contenedor 0 16
  let (rSenuelo, rOculto) := tramos contenedor.length
  let aad := datoAutenticado salt contenedor.length
  let maestra ← deriveMasterKey kdf contrasena salt [] perfil.params
  let (kS, nS) ← clavesDeRegion kdf maestra infoSenuelo
  let (kO, nO) ← clavesDeRegion kdf maestra infoOculto
  let abreSenuelo := probar aead kS nS (rSenuelo.de contenedor) aad
  let abreOculto := probar aead kO nO (rOculto.de contenedor) aad
  pure <|
    match abreOculto.bind fun c => (Prelayers.unpad c).toOption with
    | some datos => some ⟨.oculto, datos⟩
    | none =>
      match abreSenuelo.bind fun c => (Prelayers.unpad c).toOption with
      | some datos => some ⟨.senuelo, datos⟩
      | none => none

/-- Tries every profile and keeps the first opening. -/
def abrirConPerfiles (kdf : Kdf M K) (aead : Aead 24 K) (contenedor : List UInt8)
    (contrasena : String) : List Perfil → Option Apertura → Res NegacionError (Option Apertura)
  | [], abierto => pure abierto
  | p :: ps, abierto => do
    let r ← intentar kdf aead contenedor contrasena p
    abrirConPerfiles kdf aead contenedor contrasena ps (if abierto.isNone then r else abierto)

def abrir (kdf : Kdf M K) (aead : Aead 24 K) (contenedor : List UInt8) (contrasena : String)
    (perfil : Option Perfil) : Res NegacionError Apertura := do
  rechazarSi (contenedor.length < tamanoMinimo) .contenedorCorto
  let r ←
    match perfil with
    | some p => intentar kdf aead contenedor contrasena p
    | none => abrirConPerfiles kdf aead contenedor contrasena Perfil.conocidos none
  match r with
  | some a => pure a
  | none => fallar .noAbre

end Negacion

end Quipu
