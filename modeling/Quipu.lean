import Quipu.AleatorioIntentos
import Quipu.AlmacenRevocacion
import Quipu.Antihacker
import Quipu.AtaqueHoneyFuzz
import Quipu.CalendarioCivil
import Quipu.ClienteHttpServidor
import Quipu.CodecImpossible
import Quipu.Corpus
import Quipu.CustodiaIda
import Quipu.DestinatarioCnsa
import Quipu.EmisionUso
import Quipu.Escalera
import Quipu.FirmaHibrida
import Quipu.FirmanteTexto
import Quipu.Fuga
import Quipu.HackerbotFirma
import Quipu.HackerbotUnicidad
import Quipu.KdfAgreement
import Quipu.Longitudes
import Quipu.NegacionFiller
import Quipu.NegacionTamper
import Quipu.NegacionTwoRuns
import Quipu.NetLimitBurst
import Quipu.Oprf
import Quipu.PadmeFrame
import Quipu.PalabrasIda
import Quipu.PapelOrder
import Quipu.PapelScan
import Quipu.RateLimitLaw
import Quipu.ReservedFlags
import Quipu.ShamirCorrupt
import Quipu.ShamirGate
import Quipu.StreamIntegrity
import Quipu.StreamNonces
import Quipu.StreamRoundTrip
import Quipu.TecleableLectura
import Quipu.TecleableRfc
