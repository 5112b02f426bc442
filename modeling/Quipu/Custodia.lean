import Quipu.Hexadecimal
import Quipu.Lineas
import Quipu.ShamirShares
import Quipu.VoprfCliente

namespace Quipu

def Aleatorio.FalloDeSalud.depurar : Aleatorio.FalloDeSalud → String
  | .todoCeros => "TodoCeros"
  | .atascada byte veces =>
    "Atascada \x7b byte: " ++ toString byte ++ ", veces: " ++ toString veces ++ " \x7d"

def depurarOption {α : Type} (f : α → String) : Option α → String
  | none => "None"
  | some a => "Some(" ++ f a ++ ")"

def Aleatorio.SinEntropia.depurar (e : Aleatorio.SinEntropia) : String :=
  "SinEntropia \x7b bytes: " ++ toString e.bytes ++ ", intentos: " ++ toString e.intentos ++
    ", codigo_os: " ++ depurarOption toString e.codigoOs ++
    ", salud: " ++ depurarOption Aleatorio.FalloDeSalud.depurar e.salud ++ " \x7d"

/-- What the derived `Debug` writes. -/
def Shamir.ShamirError.depurar : Shamir.ShamirError → String
  | .badParameters => "BadParameters"
  | .emptySecret => "EmptySecret"
  | .notEnoughShares needed got =>
    "NotEnoughShares \x7b needed: " ++ toString needed ++ ", got: " ++ toString got ++ " \x7d"
  | .inconsistent => "Inconsistent"
  | .verificationFailed => "VerificationFailed"
  | .malformed => "Malformed"
  | .sinEntropia e => "SinEntropia(" ++ e.depurar ++ ")"

namespace Custodia

open Aleatorio Almacen Lineas Prog Servidor Shamir Voprf

def deriveInfo : List UInt8 := utf8 "quipu-oprf-server-v1"

def seedLen : Nat := 32

inductive CustodiaError where
  | seedLongitudInvalida (esperado recibido : Nat)
  | parametros
  | reconstruccion (e : ShamirError)
  | clavePublicaDistinta
  | derivacion
  deriving DecidableEq, Repr

def CustodiaError.toTexto : CustodiaError → String
  | .seedLongitudInvalida esperado recibido =>
    "el seed debe medir " ++ toString esperado ++ " bytes (" ++ toString (esperado * 2) ++
      " dígitos hex); recibidos " ++ toString recibido
  | .parametros => "parámetros de reparto inválidos"
  | .reconstruccion e => "no se pudo reconstruir: " ++ e.depurar
  | .clavePublicaDistinta =>
    "se reconstruyó un seed, pero deriva OTRA clave pública: restaurarlo invalidaría todo lo " ++
      "que los clientes derivaron"
  | .derivacion => "DeriveKeyPair falló con ese seed"

/-- How a command ends when it does not succeed: its exit code and the last it writes to
`stderr`. -/
structure Rechazo where
  codigo : UInt8
  mensaje : String
  deriving DecidableEq, Repr

inductive Stdin where
  | terminal
  | ilegible
  | texto (s : String)

section Modulo

variable {q : ℕ} {G : Type} [AddCommGroup G] [Module (ZMod q) G] [Fact q.Prime]
  (S : Suite q G) (etiqueta : List UInt8 → Arr Shamir.tagLen)

def clavePublicaDe (seed : List UInt8) : Res CustodiaError (Arr 32) :=
  if seed.length ≠ seedLen then fallar (.seedLongitudInvalida seedLen seed.length)
  else
    match S.deriveKeyPair seed deriveInfo with
    | some key => .ok (S.publicKey key)
    | none => fallar .derivacion

/-- The error of `split` as `repartir` reports it. -/
def errorDeReparto : ShamirError → CustodiaError
  | .badParameters => .parametros
  | otro => .reconstruccion otro

def repartir (seed : List UInt8) (umbral partes : UInt8) :
    Prog Cinta CustodiaError (List Share) :=
  if seed.length ≠ seedLen then Prog.deRes (fallar (.seedLongitudInvalida seedLen seed.length))
  else EStateM.adaptExcept (Fallo.map errorDeReparto) (split etiqueta seed umbral partes)

def reconstruir (partes : List Share) : Res CustodiaError (List UInt8) :=
  (combine etiqueta partes).mapErr .reconstruccion

def verificarRestauracion (partes : List Share) (esperada : Arr 32) :
    Res CustodiaError (List UInt8) := do
  let seed ← reconstruir etiqueta partes
  let obtenida ← clavePublicaDe S seed
  rechazarSi (obtenida ≠ esperada) .clavePublicaDistinta
  pure seed

def usoTexto : String :=
  "custodia-seed — reparte y restaura el seed VOPRF por umbral (Shamir k-de-n)\n\n" ++
  "  repartir  --umbral K --partes N     el seed entra por STDIN (64 hex)\n" ++
  "  restaurar --clave-publica <64hex>   las comparticiones entran por STDIN,\n" ++
  "                                      una por línea, fin con Ctrl-D\n" ++
  "            [--mostrar-seed]          sin la bandera solo COMPRUEBA que el\n" ++
  "                                      material sirve; con ella lo devuelve\n\n" ++
  "El seed NUNCA se pasa como argumento: `ps` lo mostraría a cualquiera y el\n" ++
  "historial del shell lo guardaría. Ejemplo en el servidor:\n\n" ++
  "  printenv QUIPU_OPRF_SEED | custodia-seed repartir --umbral 2 --partes 3"

def uso : Rechazo := ⟨2, usoTexto⟩

def leerStdin (que : String) : Stdin → Res Rechazo String
  | .terminal => fallar ⟨2, "error: " ++ que ++ " debe llegar por una tubería, no tecleado.\n" ++
      "Escribirlo en la terminal lo deja en el historial del shell."⟩
  | .ilegible => fallar ⟨1, "error: no se pudo leer stdin"⟩
  | .texto s => .ok s

/-- The argument after the first one that is `nombre`. -/
def valor (args : List String) (nombre : String) : Option String :=
  (args.dropWhile (· ≠ nombre)).tail.head?

def parseU8 (s : String) : Option UInt8 := (parseUnsigned 255 s).map UInt8.ofNat

def okOr {α : Type} (e : Rechazo) : Option α → Res Rechazo α
  | some a => .ok a
  | none => fallar e

/-- What `repartir` writes about each share. -/
def lineasDe (partes : UInt8) (comparticiones : List Share) : List String :=
  comparticiones.zipIdx.flatMap fun p =>
    [toHex p.1.toBytes,
      "#  ^ compartición " ++ toString (p.2 + 1) ++ " de " ++ toString partes.toNat]

/-- The lines that `repartir` writes to `stdout`. -/
def hoja (publica : Arr 32) (umbral partes : UInt8) (comparticiones : List Share) :
    List String :=
  ["# clave pública (ANÓTALA: verifica cualquier restauración futura)",
    toHex publica.toList,
    "# " ++ toString partes.toNat ++ " comparticiones, hacen falta " ++ toString umbral.toNat,
    "# reparto VERIFICADO: " ++ toString umbral.toNat ++
      " de ellas reconstruyen esta clave"] ++ lineasDe partes comparticiones

def cmdRepartir (args : List String) (stdin : Stdin) : Prog Cinta Rechazo (List String) := do
  let umbral ← Prog.deRes (okOr uso ((valor args "--umbral").bind parseU8))
  let partes ← Prog.deRes (okOr uso ((valor args "--partes").bind parseU8))
  let crudo ← Prog.deRes (leerStdin "el seed" stdin)
  let seed ← Prog.deRes (okOr ⟨1, "error: el seed debe ser exactamente 64 dígitos hex"⟩
    (fromHex32 (trim crudo)))
  let publica ← Prog.deRes ((clavePublicaDe S seed.toList).mapErr fun e =>
    ⟨1, "error: " ++ e.toTexto⟩)
  let comparticiones ← EStateM.adaptExcept
    (Fallo.map fun e => Rechazo.mk 1 ("error: " ++ e.toTexto))
    (repartir etiqueta seed.toList umbral partes)
  let _ ← Prog.deRes ((verificarRestauracion S etiqueta (comparticiones.take umbral.toNat)
    publica).mapErr fun e =>
      ⟨1, "error: el reparto NO se pudo verificar y no se entrega: " ++ e.toTexto⟩)
  pure (hoja publica umbral partes comparticiones)

/-- The loop over the lines of `stdin`, `n` of them before. -/
def leerPartes : Nat → List String → Res Rechazo (List Share)
  | _, [] => .ok []
  | n, linea :: resto =>
    let l := trim linea
    if l.isEmpty || l.toList.head? = some '#' then leerPartes (n + 1) resto
    else do
      let bytes ← okOr ⟨1, "error: la línea " ++ toString (n + 1) ++ " no es hex válido"⟩
        (fromHex l)
      let s ← (Share.fromBytes bytes).mapErr fun e =>
        ⟨1, "error: la línea " ++ toString (n + 1) ++ " no es una compartición (" ++
          e.depurar ++ ")"⟩
      let partes ← leerPartes (n + 1) resto
      pure (s :: partes)

def textoLineas (texto : String) : List String := (lines texto.toList).map String.ofList

def cmdRestaurar (args : List String) (stdin : Stdin) : Res Rechazo (List String) := do
  let esperada ← okOr ⟨2, "error: --clave-publica debe ser 64 dígitos hex\n" ++ usoTexto⟩
    ((valor args "--clave-publica").bind fromHex32)
  let crudo ← leerStdin "las comparticiones" stdin
  let partes ← leerPartes 0 (textoLineas crudo)
  rechazarSi (partes = []) ⟨1, "error: no llegó ninguna compartición"⟩
  let seed ← (verificarRestauracion S etiqueta partes esperada).mapErr fun e =>
    ⟨1, "✗ " ++ e.toTexto⟩
  pure (if "--mostrar-seed" ∈ args then [toHex seed] else [])

/-- The key of the server, from the value of `QUIPU_OPRF_SEED` where it is there. -/
def loadServerKey : Option String → Prog Cinta String (ZMod q)
  | some hex => Prog.deRes <|
    match fromHex32 (trim hex) with
    | some seed =>
      match S.deriveKeyPair seed.toList deriveInfo with
      | some key => .ok key
      | none => fallar "error: DeriveKeyPair falló con ese seed (¿seed degenerado?)"
    | none => fallar ("error: QUIPU_OPRF_SEED inválido (esperaba 64 dígitos hex, " ++
        "sin espacios). Arrancar con clave efímera invalidaría todo " ++
        "lo que los clientes ya derivaron, así que no se arranca.")
  | none => fun cinta =>
    match fill (List.Vector.replicate 32 0) cinta with
    | (.error _, _, cinta') => .error (.panico "RNG del sistema") cinta'
    | (.ok _, seed, cinta') =>
      match S.deriveKeyPair seed.toList deriveInfo with
      | some key => .ok key cinta'
      | none => .error (.panico "DeriveKeyPair con seed aleatorio") cinta'

end Modulo

end Custodia

end Quipu
