import DeviceClient.Double

namespace DeviceClient

inductive Json where
  | null
  | bool (b : Bool)
  | integer (n : Int)
  | number (x : Double)
  | text (s : String)
  | array (items : List Json)
  | object (fields : List (String × Json))

end DeviceClient
