import CanSniffer.App.FwUpdateLaws
import CanSniffer.Web.StatusPage
import CanSniffer.Web.UploadTold

namespace CanSniffer.App.FwUpdate

open Lib Iap Web Boot

variable {s t : FwUpdate} {l : UpdateLedger} {e : UpdateEvent}

end CanSniffer.App.FwUpdate
